import HotAI.Messages.Blocks

/-! # The messages of a Gemini request for a chat model (`service/convert.go`)

The message part of `GeminiToOpenAIRequest`. Responses answer the calls of the model content before them by their order; ids
are made up from how many calls the same content has had. -/
namespace HotAI.FromGemini
open HotAI.Lib List

/-- `dto.GeminiPart`; arguments and responses are given by their JSON texts. -/
structure GeminiPart where
  text : String
  /-- mime type and data -/
  inlineData : Option (String × String)
  /-- mime type and URI -/
  fileData : Option (String × String)
  /-- name and arguments -/
  functionCall : Option (String × String)
  /-- name and response -/
  functionResponse : Option (String × String)
deriving DecidableEq, Repr

structure GeminiContent where
  role : String
  parts : List GeminiPart
deriving DecidableEq, Repr

structure GeminiRequest where
  contents : List GeminiContent
  systemInstructions : Option (List GeminiPart)
deriving DecidableEq, Repr

/-! ## Chat messages -/

inductive Role where
  | system
  | user
  | assistant
  | function
  | tool
deriving DecidableEq, Repr

inductive MediaContent where
  | text (text : String)
  | imageUrl (url detail mimeType : String)
deriving DecidableEq, Repr

structure ToolCallRequest where
  id : String
  name : String
  arguments : String
deriving DecidableEq, Repr

structure Message where
  role : Role
  content : FromClaude.Content MediaContent
  toolCalls : List ToolCallRequest
  toolCallId : String
deriving DecidableEq, Repr

def Message.parseContent (m : Message) : List MediaContent := m.content.parse .text

/-! ## The conversion -/

inductive PartKind where
  | text (text : String)
  | image (url mimeType : String)
  | call (name arguments : String)
  | response (response : String)
  | other
deriving DecidableEq, Repr

def GeminiPart.kind (part : GeminiPart) : PartKind :=
  if part.text ≠ "" then .text part.text
  else match part.inlineData, part.fileData, part.functionCall, part.functionResponse with
    | some (mimeType, data), _, _, _ => .image ("data:" ++ mimeType ++ ";base64," ++ data) mimeType
    | none, some (mimeType, fileUri), _, _ => .image fileUri mimeType
    | none, none, some (name, arguments), _ => .call name arguments
    | none, none, none, some (_, response) => .response response
    | none, none, none, none => .other

def callID (n : ℕ) : String := "call_" ++ toString n

def toolMessage (n : ℕ) (response : String) : Message := ⟨.tool, .string response, [], callID n⟩

structure Converting where
  mediaContents : List MediaContent
  toolCalls : List ToolCallRequest
  messages : List Message

def convertPart (st : Converting) (part : PartKind) : Converting :=
  match part with
  | .text text => { st with mediaContents := st.mediaContents ++ [.text text] }
  | .image url mimeType => { st with mediaContents := st.mediaContents ++ [.imageUrl url "auto" mimeType] }
  | .call name arguments =>
      { st with toolCalls := st.toolCalls ++ [⟨callID (st.toolCalls.length + 1), name, arguments⟩] }
  | .response response => { st with messages := st.messages ++ [toolMessage st.toolCalls.length response] }
  | .other => st

def convertGeminiRoleToOpenAI (geminiRole : String) : Role :=
  match geminiRole with
  | "user" => .user
  | "model" => .assistant
  | "function" => .function
  | _ => .user

def messageOf (role : Role) (mediaContents : List MediaContent) (toolCalls : List ToolCallRequest) : Message :=
  if toolCalls.length > 0 then ⟨role, .absent, toolCalls, ""⟩
  else match mediaContents with
    | [] => ⟨role, .absent, [], ""⟩
    | [.text text] => ⟨role, .string text, [], ""⟩
    | contents => ⟨role, .media contents, [], ""⟩

def convertContent (messages : List Message) (content : GeminiContent) : List Message :=
  let st := (content.parts.map GeminiPart.kind).foldl convertPart ⟨[], [], messages⟩
  let message := messageOf (convertGeminiRoleToOpenAI content.role) st.mediaContents st.toolCalls
  if message.parseContent.length > 0 ∨ message.toolCalls.length > 0 then st.messages ++ [message] else st.messages

def extractTextFromGeminiParts (parts : List GeminiPart) : String :=
  "\n".intercalate ((parts.filter fun part => part.text ≠ "").map GeminiPart.text)

def systemMessages (parts : Option (List GeminiPart)) : List Message :=
  match parts with
  | none => []
  | some parts => [⟨.system, .string (extractTextFromGeminiParts parts), [], ""⟩]

/-- `GeminiToOpenAIRequest`, the messages. -/
def geminiToOpenAIMessages (request : GeminiRequest) : List Message :=
  systemMessages request.systemInstructions ++ request.contents.foldl convertContent []

/-! ## What each content becomes -/

def texts : List PartKind → List String
  | [] => []
  | .text text :: parts => text :: texts parts
  | _ :: parts => texts parts

def media : List PartKind → List MediaContent
  | [] => []
  | .text text :: parts => .text text :: media parts
  | .image url mimeType :: parts => .imageUrl url "auto" mimeType :: media parts
  | _ :: parts => media parts

/-- The calls, the first of which is the `n + 1`st. -/
def callsFrom : ℕ → List PartKind → List ToolCallRequest
  | _, [] => []
  | n, .call name arguments :: parts => ⟨callID (n + 1), name, arguments⟩ :: callsFrom (n + 1) parts
  | n, _ :: parts => callsFrom n parts

def toolMessagesFrom : ℕ → List PartKind → List Message
  | _, [] => []
  | n, .call _ _ :: parts => toolMessagesFrom (n + 1) parts
  | n, .response response :: parts => toolMessage n response :: toolMessagesFrom n parts
  | n, _ :: parts => toolMessagesFrom n parts

variable (parts : List PartKind)

theorem foldl_convertPart (st : Converting) :
    parts.foldl convertPart st = ⟨st.mediaContents ++ media parts, st.toolCalls ++ callsFrom st.toolCalls.length parts,
      st.messages ++ toolMessagesFrom st.toolCalls.length parts⟩ := by
  induction parts generalizing st with
  | nil => simp [media, callsFrom, toolMessagesFrom]
  | cons part parts ih =>
      rw [foldl_cons, ih]
      cases part <;> simp [convertPart, media, callsFrom, toolMessagesFrom]

namespace GeminiContent
variable (c : GeminiContent)

def kinds : List PartKind := c.parts.map GeminiPart.kind

def calls : List ToolCallRequest := callsFrom 0 c.kinds

def callIds : List String := c.calls.map ToolCallRequest.id

def toolMessages : List Message := toolMessagesFrom 0 c.kinds

def responses : ℕ := c.toolMessages.length

def texts : List String := FromGemini.texts c.kinds

def isModel : Bool := c.role = "model"

def ownMessage : List Message :=
  let message := messageOf (convertGeminiRoleToOpenAI c.role) (media c.kinds) c.calls
  if message.parseContent.length > 0 ∨ message.toolCalls.length > 0 then [message] else []

end GeminiContent

theorem convertContent_eq (messages : List Message) (c : GeminiContent) :
    convertContent messages c = messages ++ (c.toolMessages ++ c.ownMessage) := by
  have hst : (c.parts.map GeminiPart.kind).foldl convertPart ⟨[], [], messages⟩ =
      ⟨media c.kinds, c.calls, messages ++ c.toolMessages⟩ := by
    rw [foldl_convertPart]
    rfl
  unfold convertContent GeminiContent.ownMessage
  rw [hst, ← append_assoc]
  dsimp only
  split
  · rfl
  · rw [append_nil]

theorem foldl_convertContent (contents : List GeminiContent) (messages : List Message) :
    contents.foldl convertContent messages = messages ++ contents.flatMap fun c => c.toolMessages ++ c.ownMessage := by
  induction contents generalizing messages with
  | nil => simp
  | cons c contents ih => rw [foldl_cons, ih, convertContent_eq, flatMap_cons, append_assoc]

theorem callID_injective : Function.Injective callID := by
  intro m n h
  apply Nat.repr_inj.mp
  exact (String.append_right_inj "call_").mp h

theorem ids_callsFrom (n : ℕ) :
    (callsFrom n parts).map ToolCallRequest.id = (List.range' (n + 1) (callsFrom n parts).length).map callID := by
  induction parts generalizing n with
  | nil => rfl
  | cons part parts ih =>
      cases part with
      | call name arguments =>
          rw [callsFrom, map_cons, length_cons, range'_succ, map_cons, ih]
      | _ => exact ih n

theorem toolMessagesFrom_noCalls {parts : List PartKind} {n : ℕ} (h : callsFrom n parts = []) :
    ∀ m ∈ toolMessagesFrom n parts, m.toolCallId = callID n := by
  induction parts with
  | nil => simp [toolMessagesFrom]
  | cons part parts ih =>
      cases part with
      | call name arguments => simp [callsFrom] at h
      | response response =>
          intro m hm
          rcases mem_cons.mp hm with rfl | hrest
          · rfl
          · exact ih h m hrest
      | _ => exact ih h

theorem toolMessagesFrom_tool (n : ℕ) : ∀ m ∈ toolMessagesFrom n parts, m.role = .tool ∧ m.toolCalls = [] := by
  induction parts generalizing n with
  | nil => simp [toolMessagesFrom]
  | cons part parts ih =>
      cases part with
      | response response =>
          intro m hm
          rcases mem_cons.mp hm with rfl | hrest
          · exact ⟨rfl, rfl⟩
          · exact ih n m hrest
      | _ => exact ih _

/-! ## The conversation that the messages tell -/

def MediaContent.text? : MediaContent → Option String
  | .text s => some s
  | .imageUrl .. => none

def Message.texts (m : Message) : List String :=
  if m.role = .tool then [] else m.parseContent.filterMap MediaContent.text?

def Message.isTool (m : Message) : Bool := m.role = .tool

def callIds (messages : List Message) : List String :=
  messages.flatMap fun m => m.toolCalls.map ToolCallRequest.id

def toolCallIds (messages : List Message) : List String := (messages.filter Message.isTool).map Message.toolCallId

/-- Every tool message that answers a call of a message stands in the run of tool messages right after it. -/
def FollowedByAnswers (messages : List Message) : Prop :=
  ∀ before m after, messages = before ++ m :: after → ∀ t ∈ before ++ after.dropWhile Message.isTool,
    t.isTool = true → t.toolCallId ∉ m.toolCalls.map ToolCallRequest.id

/-- Each response answers a call of the last model content before it, in order; `unanswered` of its calls are left. -/
def Answering : ℕ → List GeminiContent → Prop
  | _, [] => True
  | unanswered, c :: contents => c.responses ≤ unanswered ∧
      Answering (if c.isModel then c.calls.length else unanswered - c.responses) contents

/-- The ids of the calls that the responses answer, in order; `unanswered` are those left of the last model content. -/
def answeredIds : List String → List GeminiContent → List String
  | _, [] => []
  | unanswered, c :: contents => unanswered.take c.responses ++
      answeredIds (if c.isModel then c.callIds else unanswered.drop c.responses) contents

structure Dialogue extends GeminiRequest where
  answering : Answering 0 contents

namespace Dialogue
variable (d : Dialogue)

def messages : List Message := geminiToOpenAIMessages d.toGeminiRequest

def systemTexts : List String :=
  match d.systemInstructions with
  | none => []
  | some parts => [extractTextFromGeminiParts parts]

/-- Ids are unique, each response names its call and follows it, and the texts are all there. -/
structure Kept : Prop where
  distinct : (callIds d.messages).Nodup
  answered : toolCallIds d.messages = answeredIds [] d.contents
  followed : FollowedByAnswers d.messages
  texts : d.messages.flatMap Message.texts = d.systemTexts ++ d.contents.flatMap GeminiContent.texts

end Dialogue

/-! ## What is left of it -/

theorem texts_media : (media parts).filterMap MediaContent.text? = texts parts := by
  induction parts with
  | nil => rfl
  | cons part parts ih =>
      cases part with
      | text text => exact congrArg (text :: ·) ih
      | _ => exact ih

namespace GeminiContent
variable (c : GeminiContent)

theorem ownMessage_spec : (c.ownMessage.flatMap fun m => m.toolCalls.map ToolCallRequest.id) = c.callIds ∧
      c.ownMessage.filter Message.isTool = [] ∧
      c.ownMessage.flatMap Message.texts = if c.calls = [] then c.texts else [] := by
  have hrole : convertGeminiRoleToOpenAI c.role ≠ .tool := by
    unfold convertGeminiRoleToOpenAI
    split <;> decide
  have htexts := texts_media c.kinds
  unfold ownMessage callIds GeminiContent.texts
  rw [← htexts]
  cases hcalls : c.calls with
  | cons call calls => simp [messageOf, Message.isTool, Message.texts, Message.parseContent, FromClaude.Content.parse, hrole]
  | nil =>
      rcases hmedia : media c.kinds with _ | ⟨first, _ | ⟨-, -⟩⟩
      · simp [messageOf, Message.parseContent, FromClaude.Content.parse]
      · cases first <;> simp [messageOf, Message.isTool, Message.texts, Message.parseContent, FromClaude.Content.parse, MediaContent.text?,
          hrole]
      · simp [messageOf, Message.isTool, Message.texts, Message.parseContent, FromClaude.Content.parse, hrole]

end GeminiContent

namespace Dialogue
variable (d : Dialogue)

theorem messages_eq : d.messages =
    systemMessages d.systemInstructions ++ d.contents.flatMap fun c => c.toolMessages ++ c.ownMessage := by
  rw [messages, geminiToOpenAIMessages, foldl_convertContent, nil_append]

theorem callIds_messages : callIds d.messages = d.contents.flatMap GeminiContent.callIds := by
  rw [messages_eq, callIds, flatMap_append, flatMap_assoc]
  have hsystem : (systemMessages d.systemInstructions).flatMap (fun m => m.toolCalls.map ToolCallRequest.id) = [] := by
    unfold systemMessages
    split <;> rfl
  rw [hsystem]
  refine flatMap_congr fun c _ => ?_
  have htool : c.toolMessages.flatMap (fun m => m.toolCalls.map ToolCallRequest.id) = [] := by
    rw [flatMap_eq_nil_iff]
    intro m hm
    rw [(toolMessagesFrom_tool _ _ m hm).2]
    rfl
  rw [flatMap_append, htool, nil_append, c.ownMessage_spec.1]

theorem filter_isTool_messages : d.messages.filter Message.isTool = d.contents.flatMap GeminiContent.toolMessages := by
  have hsystem : (systemMessages d.systemInstructions).filter Message.isTool = [] := by
    unfold systemMessages
    split <;> rfl
  rw [messages_eq, filter_append, hsystem, filter_flatMap]
  refine flatMap_congr fun c _ => ?_
  have htool : c.toolMessages.filter Message.isTool = c.toolMessages := by
    rw [filter_eq_self]
    intro m hm
    exact decide_eq_true (toolMessagesFrom_tool _ _ m hm).1
  rw [filter_append, htool, c.ownMessage_spec.2.1, append_nil]

theorem texts_messages : d.messages.flatMap Message.texts =
    d.systemTexts ++ d.contents.flatMap fun c => if c.calls = [] then c.texts else [] := by
  have hsystem : (systemMessages d.systemInstructions).flatMap Message.texts = d.systemTexts := by
    unfold systemMessages systemTexts
    split <;> rfl
  rw [messages_eq, flatMap_append, flatMap_assoc]
  congr 1
  refine flatMap_congr fun c _ => ?_
  have htool : c.toolMessages.flatMap Message.texts = [] := by
    rw [flatMap_eq_nil_iff]
    intro m hm
    exact if_pos (toolMessagesFrom_tool _ _ m hm).1
  rw [flatMap_append, htool, nil_append, c.ownMessage_spec.2.2]

theorem texts_kept_iff : d.messages.flatMap Message.texts = d.systemTexts ++ d.contents.flatMap GeminiContent.texts ↔
    ∀ c ∈ d.contents, c.calls = [] ∨ c.texts = [] := by
  rw [texts_messages, append_cancel_left_eq, flatMap_eq_flatMap_iff]
  · refine forall₂_congr fun c _ => ?_
    by_cases hcalls : c.calls = []
    · rw [if_pos hcalls]
      exact ⟨fun _ => Or.inl hcalls, fun _ => rfl⟩
    · rw [if_neg hcalls]
      exact ⟨fun h => Or.inr h.symm, fun h => (h.resolve_left hcalls).symm⟩
  · intro c _
    split
    · exact le_rfl
    · exact Nat.zero_le _

theorem callID_one_mem {c : GeminiContent} (h : c.calls ≠ []) : callID 1 ∈ c.callIds := by
  have hids := ids_callsFrom c.kinds 0
  have hpos : 0 < (callsFrom 0 c.kinds).length := length_pos_of_ne_nil h
  rw [GeminiContent.callIds, GeminiContent.calls, hids]
  refine mem_map_of_mem ?_
  rw [mem_range'_1]
  omega

theorem mem_callIds {c : GeminiContent} {id : String} (h : id ∈ c.callIds) : ∃ n, id = callID (n + 1) := by
  rw [GeminiContent.callIds, GeminiContent.calls, ids_callsFrom, mem_map] at h
  obtain ⟨n, hn, rfl⟩ := h
  rw [mem_range'_1] at hn
  exact ⟨n - 1, by congr 1; omega⟩

theorem distinct_iff : (callIds d.messages).Nodup ↔ d.contents.Pairwise fun a b => a.calls = [] ∨ b.calls = [] := by
  rw [callIds_messages, nodup_flatMap]
  constructor
  · rintro ⟨-, hdisjoint⟩
    refine hdisjoint.imp fun {a b} hab => ?_
    by_contra hboth
    push Not at hboth
    exact hab (callID_one_mem hboth.1) (callID_one_mem hboth.2)
  · intro hpairwise
    constructor
    · intro c _
      rw [GeminiContent.callIds, GeminiContent.calls, ids_callsFrom]
      exact List.Nodup.map callID_injective nodup_range'
    · refine hpairwise.imp fun {a b} hab => ?_
      rcases hab with ha | hb
      · simp [Function.onFun, GeminiContent.callIds, ha]
      · simp [Function.onFun, GeminiContent.callIds, hb]

end Dialogue

variable {contents : List GeminiContent}

/-- With unique ids no response can be answered: its own content has no calls, so that its id is `call_0`. -/
theorem no_responses {unanswered : List String} (hpairwise : contents.Pairwise fun a b => a.calls = [] ∨ b.calls = [])
    (hids : ∀ id ∈ unanswered, ∃ n, id = callID (n + 1))
    (hrest : unanswered ≠ [] → ∀ c ∈ contents, c.calls = [])
    (hanswering : Answering unanswered.length contents)
    (h : (contents.flatMap fun c => c.toolMessages.map Message.toolCallId) = answeredIds unanswered contents) :
    ∀ c ∈ contents, c.responses = 0 := by
  induction contents generalizing unanswered with
  | nil => simp
  | cons c contents ih =>
      obtain ⟨hfits, hlater⟩ := hanswering
      obtain ⟨hfirst, hpairwise⟩ := pairwise_cons.mp hpairwise
      rw [flatMap_cons] at h
      have hlength : (c.toolMessages.map Message.toolCallId).length = (unanswered.take c.responses).length := by
        rw [length_map, length_take, Nat.min_eq_left hfits, GeminiContent.responses]
      obtain ⟨hhere, htail⟩ := append_inj h hlength
      have hnone : c.responses = 0 := by
        by_contra hsome
        have hpos : 0 < c.toolMessages.length := Nat.pos_of_ne_zero hsome
        have hopen : unanswered ≠ [] := by
          rintro rfl
          exact hsome (Nat.le_zero.mp hfits)
        have hcalls : c.calls = [] := hrest hopen c mem_cons_self
        have hmem : (c.toolMessages.get ⟨0, hpos⟩) ∈ c.toolMessages := get_mem _ _
        have hzero := toolMessagesFrom_noCalls hcalls _ hmem
        have hin : callID 0 ∈ unanswered := by
          have hmap := mem_map_of_mem (f := Message.toolCallId) hmem
          rw [hzero, hhere] at hmap
          exact mem_of_mem_take hmap
        obtain ⟨n, hn⟩ := hids _ hin
        exact absurd (callID_injective hn) (by omega)
      refine forall_mem_cons.mpr ⟨hnone, ?_⟩
      by_cases hmodel : c.isModel = true
      · rw [if_pos hmodel] at htail hlater
        refine ih hpairwise (fun id hid => Dialogue.mem_callIds hid) ?_ ?_ htail
        · intro hopen later hmem
          refine (hfirst later hmem).resolve_left fun hcalls => hopen ?_
          rw [GeminiContent.callIds, hcalls]
          rfl
        · rw [GeminiContent.callIds, length_map]
          exact hlater
      · rw [if_neg hmodel, hnone] at htail hlater
        exact ih hpairwise hids (fun hopen later hmem => hrest hopen later (mem_cons_of_mem _ hmem)) hlater htail

theorem answeredIds_of_no_responses (h : ∀ c ∈ contents, c.responses = 0)
    (unanswered : List String) : answeredIds unanswered contents = [] := by
  induction contents generalizing unanswered with
  | nil => rfl
  | cons c contents ih =>
      rw [answeredIds, h c mem_cons_self, take_zero]
      exact ih (fun later hmem => h later (mem_cons_of_mem _ hmem)) _

/-- A conversation survives only if there are no responses, one content has calls, and none has calls and text. -/
theorem Dialogue.kept_iff (d : Dialogue) :
    d.Kept ↔ (∀ c ∈ d.contents, c.responses = 0) ∧ (d.contents.Pairwise fun a b => a.calls = [] ∨ b.calls = []) ∧
      ∀ c ∈ d.contents, c.calls = [] ∨ c.texts = [] := by
  have htoolIds : toolCallIds d.messages = d.contents.flatMap fun c => c.toolMessages.map Message.toolCallId := by
    rw [toolCallIds, d.filter_isTool_messages, map_flatMap]
  constructor
  · rintro ⟨hdistinct, hanswered, -, htexts⟩
    have hpairwise := d.distinct_iff.mp hdistinct
    rw [htoolIds] at hanswered
    exact ⟨no_responses hpairwise (fun _ h => absurd h not_mem_nil) (fun h => absurd rfl h) d.answering hanswered, hpairwise,
      d.texts_kept_iff.mp htexts⟩
  · rintro ⟨hresponses, hpairwise, htexts⟩
    have hnone : d.contents.flatMap GeminiContent.toolMessages = [] := by
      rw [flatMap_eq_nil_iff]
      intro c hc
      exact length_eq_zero_iff.mp (hresponses c hc)
    have htools : ∀ t ∈ d.messages, t.isTool = false := by
      have hfilter := d.filter_isTool_messages
      rw [hnone, filter_eq_nil_iff] at hfilter
      intro t ht
      exact Bool.eq_false_iff.mpr (hfilter t ht)
    refine ⟨d.distinct_iff.mpr hpairwise, ?_, ?_, d.texts_kept_iff.mpr htexts⟩
    · rw [answeredIds_of_no_responses hresponses, toolCallIds, d.filter_isTool_messages, hnone]
      rfl
    · intro before m after hmessages t ht htool
      have hmem : t ∈ d.messages := by
        rw [hmessages, mem_append, mem_cons]
        rcases mem_append.mp ht with hbefore | hafter
        · exact Or.inl hbefore
        · exact Or.inr (Or.inr ((dropWhile_sublist _).mem hafter))
      rw [htools t hmem] at htool
      cases htool

def weatherRound : Dialogue where
  contents :=
    [⟨"user", [⟨"weather in Paris?", none, none, none, none⟩]⟩,
      ⟨"model", [⟨"", none, none, some ("weather", "\x7b\"city\":\"Paris\"\x7d"), none⟩]⟩,
      ⟨"user", [⟨"", none, none, none, some ("weather", "\x7b\"sky\":\"clear\"\x7d")⟩]⟩]
  systemInstructions := none
  answering := ⟨by decide, by decide, by decide, trivial⟩

theorem weatherRound_answer_lost :
    callIds weatherRound.messages = ["call_1"] ∧ toolCallIds weatherRound.messages = ["call_0"] ∧
      answeredIds [] weatherRound.contents = ["call_1"] := by
  decide

end HotAI.FromGemini
