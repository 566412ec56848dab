import HotAI.Convert.Equivalence

/-! # Chat answers as responses, and back (`relayconvert/chat_to_responses_response.go`)

One output item is made of the content, one of the reasoning and one of each tool call. The way back collects them; without
a text of the assistant it takes the text of all items. -/
namespace HotAI.Convert
open HotAI.Lib Option String List

/-! ## Messages -/

structure ContentItem where
  type : String
  text : Option String
deriving DecidableEq, Repr

inductive MessageContent where
  | null
  | text (content : String)
  | items (items : List ContentItem)
deriving DecidableEq, Repr

/-- `dto.ToolCallRequest`; `custom` is what `ArgumentsString` makes of the raw message. -/
structure ToolCallRequest where
  id : String
  type : String
  name : String
  arguments : String
  custom : String
deriving DecidableEq, Repr

structure Message where
  content : MessageContent
  reasoningContent : Option String
  reasoning : Option String
  toolCalls : List ToolCallRequest
deriving DecidableEq, Repr

def Message.stringContent (m : Message) : String :=
  match m.content with
  | .null => ""
  | .text content => content
  | .items items => concat ((items.filter fun item => item.type = "text").map fun item => item.text.getD "")

def Message.getReasoningContent (m : Message) : String := (m.reasoningContent.or m.reasoning).getD ""

/-! ## Usage -/

structure InputTokenDetails where
  cachedTokens : ℤ
  cachedCreationTokens : ℤ
  textTokens : ℤ
  audioTokens : ℤ
  imageTokens : ℤ
deriving DecidableEq, Repr

structure OutputTokenDetails where
  textTokens : ℤ
  audioTokens : ℤ
  imageTokens : ℤ
  reasoningTokens : ℤ
deriving DecidableEq, Repr

/-- `dto.Usage` as both formats use it. -/
structure Usage where
  promptTokens : ℤ
  completionTokens : ℤ
  totalTokens : ℤ
  promptTokensDetails : InputTokenDetails
  completionTokenDetails : OutputTokenDetails
  inputTokens : ℤ
  outputTokens : ℤ
  inputTokensDetails : Option InputTokenDetails
deriving DecidableEq, Repr

def InputTokenDetails.zero : InputTokenDetails := ⟨0, 0, 0, 0, 0⟩

def OutputTokenDetails.zero : OutputTokenDetails := ⟨0, 0, 0, 0⟩

def usageFromChatUsage (src : Usage) : Usage where
  -- a count is copied when it is not 0, which it is otherwise
  promptTokens := src.promptTokens
  inputTokens := src.promptTokens
  completionTokens := src.completionTokens
  outputTokens := src.completionTokens
  totalTokens := if src.totalTokens ≠ 0 then src.totalTokens else src.promptTokens + src.completionTokens
  promptTokensDetails := .zero
  inputTokensDetails := if src.promptTokensDetails ≠ .zero then some src.promptTokensDetails else none
  completionTokenDetails := src.completionTokenDetails

def usageFromResponsesUsage (src : Option Usage) : Usage :=
  match src with
  | none => ⟨0, 0, 0, .zero, .zero, 0, 0, none⟩
  | some src =>
      { promptTokens := src.inputTokens
        inputTokens := src.inputTokens
        completionTokens := src.outputTokens
        outputTokens := src.outputTokens
        totalTokens := if src.totalTokens ≠ 0 then src.totalTokens else src.inputTokens + src.outputTokens
        promptTokensDetails := match src.inputTokensDetails with
          | none => .zero
          | some details =>
              { InputTokenDetails.zero with
                cachedTokens := details.cachedTokens
                imageTokens := details.imageTokens
                audioTokens := details.audioTokens }
        completionTokenDetails :=
          { OutputTokenDetails.zero with reasoningTokens := src.completionTokenDetails.reasoningTokens }
        inputTokensDetails := none }

/-! ## Responses -/

structure ChatChoice where
  message : Message
  finishReason : String
deriving DecidableEq, Repr

structure ChatResponse where
  model : String
  choices : List ChatChoice
  usage : Usage
deriving DecidableEq, Repr

structure ResponsesResponse extends Response where
  id : String
  model : String
  usage : Option Usage
deriving DecidableEq, Repr

def responsesStatusFromChatFinishReason (finishReason : String) : String × Option String :=
  if trimSpace finishReason = "length" then ("incomplete", some "max_output_tokens")
  else if trimSpace finishReason = "content_filter" then ("incomplete", some "content_filter")
  else ("completed", none)

/-- `chatToolCallToResponsesOutput`. The arguments become a JSON string, which `ArgumentsString` reads back. -/
def chatToolCallToResponsesOutput (responseID : String) (index : ℕ) (toolCall : ToolCallRequest) : Output :=
  let callID := if trimSpace toolCall.id = "" then responseID ++ "_call_" ++ toString index else trimSpace toolCall.id
  if toolCall.type = "" ∨ toolCall.type = "function" then
    ⟨"function_call", callID, "", [], callID, toolCall.name, toolCall.arguments⟩
  else ⟨toolCall.type, callID, "", [], callID, "", toolCall.custom⟩

def contentOutput (id text : String) : List Output :=
  if text ≠ "" then [⟨"message", id ++ "_msg_0", "assistant", [⟨"output_text", text⟩], "", "", ""⟩] else []

def reasoningOutput (id reasoning : String) : List Output :=
  if reasoning ≠ "" then [⟨"reasoning", id ++ "_reasoning_0", "", [⟨"summary_text", reasoning⟩], "", "", ""⟩] else []

def messageOutput (id : String) (m : Message) : List Output :=
  contentOutput id m.stringContent ++ reasoningOutput id m.getReasoningContent ++
    m.toolCalls.mapIdx (chatToolCallToResponsesOutput id)

def chatCompletionsResponseToResponsesResponse (resp : ChatResponse) (id : String) : ResponsesResponse :=
  let usage := some (usageFromChatUsage resp.usage)
  match resp.choices with
  | [] => ⟨⟨[], "completed", none⟩, id, resp.model, usage⟩
  | choice :: _ =>
      let (status, details) := responsesStatusFromChatFinishReason choice.finishReason
      ⟨⟨messageOutput id choice.message, status, details⟩, id, resp.model, usage⟩

/-! ## What comes back -/

theorem concat_of_all_empty {texts : List String} (h : ∀ text ∈ texts, text = "") : concat texts = "" := by
  induction texts with
  | nil => rfl
  | cons text texts ih =>
      have htexts : concat texts = "" := ih fun t ht => h t (mem_cons_of_mem _ ht)
      have htext : text = "" := h text mem_cons_self
      change text ++ concat texts = ""
      rw [htext, htexts]
      rfl

theorem mem_mapIdx {α β : Type} {f : ℕ → α → β} {l : List α} {b : β} (h : b ∈ l.mapIdx f) : ∃ i, ∃ a ∈ l, f i a = b := by
  obtain ⟨i, hi, hb⟩ := List.mem_mapIdx.mp h
  exact ⟨i, l[i], List.getElem_mem hi, hb⟩

structure ToolCallRequest.IsPlain (call : ToolCallRequest) : Prop where
  type : call.type = "" ∨ call.type = "function"
  id_ne : call.id ≠ ""
  id_trimmed : trimSpace call.id = call.id
  name_ne : call.name ≠ ""
  name_trimmed : trimSpace call.name = call.name

def ToolCallRequest.toolCall (call : ToolCallRequest) : ToolCall := ⟨call.id, call.name, call.arguments⟩

variable {call : ToolCallRequest}

theorem output_of_plain (h : call.IsPlain) (id : String) (index : ℕ) : chatToolCallToResponsesOutput id index call =
      ⟨"function_call", call.id, "", [], call.id, call.name, call.arguments⟩ := by
  unfold chatToolCallToResponsesOutput
  rw [if_pos h.type, h.id_trimmed, if_neg h.id_ne]

theorem toolCallOf_plain (h : call.IsPlain) (id : String) (index : ℕ) :
    toolCallOf (chatToolCallToResponsesOutput id index call) = some call.toolCall := by
  rw [output_of_plain h, toolCallOf]
  rw [h.name_trimmed, if_neg h.name_ne, h.id_trimmed, if_neg h.id_ne]
  rfl

section Parts
variable (id text reasoning : String)

theorem filter_contentOutput : (contentOutput id text).filterMap toolCallOf = [] ∧
    (contentOutput id text).filter (fun out => out.type = "reasoning") = [] := by
  unfold contentOutput
  split <;> exact ⟨rfl, rfl⟩

theorem filter_reasoningOutput : (reasoningOutput id reasoning).filterMap toolCallOf = [] ∧
    (reasoningOutput id reasoning).filter Output.isAssistantMessage = [] ∧
    (reasoningOutput id reasoning).filter (fun out => out.type = "reasoning") = reasoningOutput id reasoning := by
  unfold reasoningOutput
  split <;> exact ⟨rfl, rfl, rfl⟩

theorem toolCalls_mapIdx {calls : List ToolCallRequest} (h : ∀ call ∈ calls, call.IsPlain) :
    (calls.mapIdx (chatToolCallToResponsesOutput id)).filterMap toolCallOf = calls.map ToolCallRequest.toolCall := by
  rw [List.mapIdx_eq_zipIdx_map, List.filterMap_map]
  have hsome : ∀ entry ∈ calls.zipIdx,
      (toolCallOf ∘ fun entry : ToolCallRequest × ℕ => chatToolCallToResponsesOutput id entry.2 entry.1) entry =
        some entry.1.toolCall := by
    rintro ⟨call, index⟩ hmem
    exact toolCallOf_plain (h call (List.fst_mem_of_mem_zipIdx hmem)) id index
  have hfst : calls.zipIdx.map (fun entry => entry.1.toolCall) = (calls.zipIdx.map Prod.fst).map ToolCallRequest.toolCall := by
    rw [List.map_map]
    rfl
  rw [List.filterMap_congr hsome, List.filterMap_eq_map', hfst, List.zipIdx_map_fst]

theorem assistant_contentOutput :
    concat (((contentOutput id text).filter Output.isAssistantMessage).map Output.outputText) = text := by
  unfold contentOutput
  split
  · change (text ++ "") ++ "" = text
    rw [append_empty, append_empty]
  · next h => exact (not_not.mp h).symm

theorem allText_reasoningOutput : concat ((reasoningOutput id reasoning).map Output.allText) = reasoning := by
  unfold reasoningOutput
  split
  · change (reasoning ++ "") ++ "" = reasoning
    rw [append_empty, append_empty]
  · next h => exact (not_not.mp h).symm

end Parts

theorem callOutputs {id : String} {calls : List ToolCallRequest} (h : ∀ call ∈ calls, call.IsPlain) (out : Output)
    (hout : out ∈ calls.mapIdx (chatToolCallToResponsesOutput id)) : out.type = "function_call" ∧ out.content = [] := by
  obtain ⟨-, call, hcall, rfl⟩ := mem_mapIdx hout
  rw [output_of_plain (h call hcall)]
  exact ⟨rfl, rfl⟩

variable {m : Message} (hcalls : ∀ call ∈ m.toolCalls, call.IsPlain) (id : String)
include hcalls

theorem toolCalls_messageOutput : (messageOutput id m).filterMap toolCallOf = m.toolCalls.map ToolCallRequest.toolCall := by
  rw [messageOutput, filterMap_append, filterMap_append, (filter_contentOutput ..).1, (filter_reasoningOutput ..).1,
    toolCalls_mapIdx id hcalls, nil_append, nil_append]

theorem extractReasoningText_messageOutput : extractReasoningText (messageOutput id m) = m.getReasoningContent := by
  have hnone : (m.toolCalls.mapIdx (chatToolCallToResponsesOutput id)).filter (fun out => out.type = "reasoning") = [] := by
    rw [filter_eq_nil_iff]
    intro out hout
    rw [(callOutputs hcalls out hout).1]
    decide
  rw [extractReasoningText, messageOutput, filter_append, filter_append, (filter_contentOutput ..).2, hnone,
    (filter_reasoningOutput ..).2.2, nil_append, append_nil, allText_reasoningOutput]

theorem extractOutputText_messageOutput :
    extractOutputText (messageOutput id m) = if m.stringContent ≠ "" then m.stringContent else m.getReasoningContent := by
  have hmessages : (m.toolCalls.mapIdx (chatToolCallToResponsesOutput id)).filter Output.isAssistantMessage = [] := by
    rw [filter_eq_nil_iff]
    intro out hout
    rw [Output.isAssistantMessage, (callOutputs hcalls out hout).1, decide_eq_false (by decide), Bool.false_and]
    decide
  have htexts : concat ((m.toolCalls.mapIdx (chatToolCallToResponsesOutput id)).map Output.allText) = "" := by
    apply concat_of_all_empty
    intro text htext
    obtain ⟨out, hout, rfl⟩ := mem_map.mp htext
    rw [Output.allText, (callOutputs hcalls out hout).2]
    rfl
  have hassistant : concat (((messageOutput id m).filter Output.isAssistantMessage).map Output.outputText) =
      m.stringContent := by
    rw [messageOutput, filter_append, filter_append, (filter_reasoningOutput ..).2.1, hmessages, append_nil,
      append_nil, assistant_contentOutput]
  unfold extractOutputText
  rw [hassistant]
  dsimp only
  split
  · rfl
  · next hempty =>
      have hcontent : contentOutput id m.stringContent = [] := if_neg hempty
      rw [messageOutput, hcontent, nil_append, map_append, concat_append, allText_reasoningOutput, htexts,
        append_empty]

omit hcalls

def ChatChoice.FinishReasonFits (choice : ChatChoice) : Prop :=
  choice.finishReason = "length" ∨ choice.finishReason = "content_filter" ∨
    choice.finishReason = if choice.message.toolCalls ≠ [] then "tool_calls" else "stop"

instance (choice : ChatChoice) : Decidable choice.FinishReasonFits :=
  inferInstanceAs (Decidable (_ ∨ _ ∨ _))

theorem finishReasonFromStatus_back (output : List Output) (reason : String) :
    responsesFinishReasonFromStatus (some ⟨output, (responsesStatusFromChatFinishReason reason).1,
      (responsesStatusFromChatFinishReason reason).2⟩) =
      if trimSpace reason = "length" then some "length"
      else if trimSpace reason = "content_filter" then some "content_filter" else none := by
  have hincomplete : trimSpace "incomplete" = "incomplete" := by decide
  have hmax : trimSpace "max_output_tokens" ≠ "content_filter" := by decide
  have hfilter : trimSpace "content_filter" = "content_filter" := by decide
  have hcompleted : trimSpace "completed" ≠ "incomplete" := by decide
  unfold responsesStatusFromChatFinishReason responsesFinishReasonFromStatus
  split_ifs <;> simp_all

def finishReasonBack (response : Response) (calls : List ToolCall) : String :=
  (responsesFinishReasonFromStatus (some response)).getD (if calls ≠ [] then "tool_calls" else "stop")

theorem responsesResponseToChat_eq (response : Response) : responsesResponseToChatCompletionsResponse response =
      ⟨extractOutputText response.output, extractReasoningText response.output, response.output.filterMap toolCallOf,
        some (finishReasonBack response (response.output.filterMap toolCallOf))⟩ := by
  unfold responsesResponseToChatCompletionsResponse finishReasonBack
  cases responsesFinishReasonFromStatus (some response) with
  | some reason => rfl
  | none => rw [getD_none, apply_ite some]

theorem finishReason_back {choice : ChatChoice} (h : choice.FinishReasonFits) (output : List Output)
    (calls : List ToolCall) (hcalls : calls = [] ↔ choice.message.toolCalls = []) :
    finishReasonBack ⟨output, (responsesStatusFromChatFinishReason choice.finishReason).1,
      (responsesStatusFromChatFinishReason choice.finishReason).2⟩ calls = choice.finishReason := by
  have hlength : trimSpace "length" = "length" := by decide
  have hfilter : trimSpace "content_filter" = "content_filter" := by decide
  rw [finishReasonBack, finishReasonFromStatus_back]
  rcases h with h | h | h
  · rw [h, hlength, if_pos rfl, getD_some]
  · rw [h, hfilter, if_neg (by decide), if_pos rfl, getD_some]
  · by_cases hnil : choice.message.toolCalls = []
    · rw [if_neg (not_not.mpr hnil)] at h
      rw [h, if_neg (by decide), if_neg (by decide), if_neg (not_not.mpr (hcalls.mpr hnil)), getD_none]
    · rw [if_pos hnil] at h
      rw [h, if_neg (by decide), if_neg (by decide), if_pos (fun hc => hnil (hcalls.mp hc)), getD_none]

theorem usage_back (u : Usage) (htotal : u.totalTokens = u.promptTokens + u.completionTokens) :
    let back := usageFromResponsesUsage (some (usageFromChatUsage u))
    back.promptTokens = u.promptTokens ∧ back.completionTokens = u.completionTokens ∧
      back.totalTokens = u.totalTokens ∧ back.promptTokensDetails.cachedTokens = u.promptTokensDetails.cachedTokens := by
  refine ⟨rfl, rfl, ?_, ?_⟩
  · simp only [usageFromResponsesUsage, usageFromChatUsage]
    split_ifs <;> omega
  · simp only [usageFromResponsesUsage, usageFromChatUsage]
    by_cases hzero : u.promptTokensDetails = .zero
    · rw [if_neg (not_not.mpr hzero), hzero]
    · rw [if_pos hzero]

structure SingleChoice where
  response : ChatResponse
  choice : ChatChoice
  choices : response.choices = [choice]
  content : String
  content_text : choice.message.content = .text content
  calls : ∀ call ∈ choice.message.toolCalls, call.IsPlain ∧ call.arguments ≠ ""
  finish : choice.FinishReasonFits
  total : response.usage.totalTokens = response.usage.promptTokens + response.usage.completionTokens

namespace SingleChoice
variable (s : SingleChoice)

def reasoning : String := s.choice.message.getReasoningContent

def message : ChatMessage :=
  ⟨s.content, s.reasoning, s.choice.message.toolCalls.map ToolCallRequest.toolCall, some s.choice.finishReason⟩

def converted (id : String) : ResponsesResponse := chatCompletionsResponseToResponsesResponse s.response id

theorem converted_eq (id : String) :
    s.converted id = ⟨⟨messageOutput id s.choice.message, (responsesStatusFromChatFinishReason s.choice.finishReason).1,
      (responsesStatusFromChatFinishReason s.choice.finishReason).2⟩, id, s.response.model,
      some (usageFromChatUsage s.response.usage)⟩ := by
  rw [converted, chatCompletionsResponseToResponsesResponse, s.choices]

theorem message_back (id : String) : responsesResponseToChatCompletionsResponse (s.converted id).toResponse =
      { s.message with content := if s.content ≠ "" then s.content else s.reasoning } := by
  have hcalls : ∀ call ∈ s.choice.message.toolCalls, call.IsPlain := fun call hcall => (s.calls call hcall).1
  have hfinish := finishReason_back s.finish (messageOutput id s.choice.message)
    (s.choice.message.toolCalls.map ToolCallRequest.toolCall) map_eq_nil_iff
  rw [s.converted_eq, responsesResponseToChat_eq]
  rw [toolCalls_messageOutput hcalls, extractReasoningText_messageOutput hcalls, extractOutputText_messageOutput hcalls,
    Message.stringContent, s.content_text, hfinish]
  rfl

/-- Chat to Responses to chat gives the answer back unless its only text is reasoning. -/
theorem back_to_chat (id : String) : (responsesResponseToChatCompletionsResponse (s.converted id).toResponse = s.message ∧
      let back := usageFromResponsesUsage (s.converted id).usage
      back.promptTokens = s.response.usage.promptTokens ∧ back.completionTokens = s.response.usage.completionTokens ∧
        back.totalTokens = s.response.usage.totalTokens ∧
        back.promptTokensDetails.cachedTokens = s.response.usage.promptTokensDetails.cachedTokens) ↔
    (s.content ≠ "" ∨ s.reasoning = "") := by
  have husage : (s.converted id).usage = some (usageFromChatUsage s.response.usage) := by rw [s.converted_eq]
  rw [husage, s.message_back, and_iff_left (usage_back s.response.usage s.total)]
  constructor
  · intro hback
    have hcontent : (if s.content ≠ "" then s.content else s.reasoning) = s.content := congrArg ChatMessage.content hback
    by_cases hempty : s.content = ""
    · rw [hempty] at hcontent
      exact Or.inr hcontent
    · exact Or.inl hempty
  · rintro (hcontent | hreasoning)
    · rw [if_pos hcontent]
      rfl
    · by_cases hempty : s.content = ""
      · rw [if_neg (not_not.mpr hempty), hreasoning, ← hempty]
        rfl
      · rw [if_pos hempty]
        rfl

end SingleChoice

def thinkingOnly : SingleChoice where
  response := ⟨"deepseek-reasoner", [⟨⟨.text "", some "let me see", none, []⟩, "length"⟩],
    ⟨5, 3, 8, .zero, .zero, 0, 0, none⟩⟩
  choice := ⟨⟨.text "", some "let me see", none, []⟩, "length"⟩
  choices := rfl
  content := ""
  content_text := rfl
  calls := by simp
  finish := by decide
  total := by decide

theorem thinkingOnly_becomes_content :
    responsesResponseToChatCompletionsResponse (thinkingOnly.converted "resp_1").toResponse =
        ⟨"let me see", "let me see", [], some "length"⟩ ∧
      thinkingOnly.message = ⟨"", "let me see", [], some "length"⟩ := by
  decide

end HotAI.Convert
