import HotAI.Stream.Aggregate

/-! # Chat answers for Gemini clients (`service/convert.go`)

`ResponseOpenAI2Gemini` converts a whole answer, `StreamResponseOpenAI2Gemini` one chunk without memory of the ones before,
so that each delta of a tool call becomes a `functionCall` part of its own. -/
namespace HotAI.ToGemini
open HotAI.Lib HotAI.Stream List

/-- How `json.Unmarshal` reads an object, with the two arguments that the source makes itself. -/
structure ArgsFormat (Args : Type) where
  unmarshal : String → Option Args
  /-- the object with the text as its field `arguments` -/
  wrapped : String → Args
  empty : Args

variable {Args : Type} (fmt : ArgsFormat Args)

def ArgsFormat.args (arguments : String) : Args :=
  if arguments ≠ "" then (fmt.unmarshal arguments).getD (fmt.wrapped arguments) else fmt.empty

inductive GeminiPart (Args : Type) where
  | text (text : String)
  | functionCall (name : String) (args : Args)

structure GeminiCandidate (Args : Type) where
  index : ℕ
  finishReason : Option String
  /-- The content, of role `model`. -/
  parts : List (GeminiPart Args)

structure UsageMetadata where
  promptTokenCount : ℤ
  candidatesTokenCount : ℤ
  totalTokenCount : ℤ

structure GeminiChatResponse (Args : Type) where
  candidates : List (GeminiCandidate Args)
  usageMetadata : UsageMetadata

def geminiFinishReason (finishReason : String) : String :=
  match finishReason with
  | "stop" => "STOP"
  | "length" => "MAX_TOKENS"
  | "content_filter" => "SAFETY"
  | "tool_calls" => "STOP"
  | _ => "STOP"

def textParts (text : String) : List (GeminiPart Args) := if text ≠ "" then [.text text] else []

/-! ## A whole answer -/

structure TextChoice where
  index : ℕ
  content : String
  toolCalls : List AggregatedCall
  finishReason : String

structure TextResponse where
  choices : List TextChoice
  promptTokens : ℤ
  completionTokens : ℤ

def responseOpenAI2Gemini (openAIResponse : TextResponse) : GeminiChatResponse Args where
  candidates := openAIResponse.choices.map fun choice =>
    { index := choice.index
      finishReason := some (geminiFinishReason choice.finishReason)
      parts := textParts choice.content ++
        choice.toolCalls.map fun toolCall => .functionCall toolCall.name (fmt.args toolCall.arguments) }
  usageMetadata := ⟨openAIResponse.promptTokens, openAIResponse.completionTokens,
    openAIResponse.promptTokens + openAIResponse.completionTokens⟩

/-! ## A chunk -/

/-- A delta; `tool_calls` may be missing or be an empty list. -/
structure Delta where
  content : Option String
  toolCalls : Option (List ToolCallResponse)
deriving DecidableEq, Repr

def Delta.getContentString (d : Delta) : String := d.content.getD ""

structure Choice where
  index : ℕ
  delta : Delta
  finishReason : Option String
deriving DecidableEq, Repr

structure ChunkUsage where
  promptTokens : ℤ
  completionTokens : ℤ
  totalTokens : ℤ
deriving DecidableEq, Repr

structure Chunk where
  choices : List Choice
  usage : Option ChunkUsage
deriving DecidableEq, Repr

def Choice.hasContent (choice : Choice) : Bool :=
  choice.delta.getContentString ≠ "" || choice.delta.toolCalls.getD [] ≠ []

def Delta.parts (delta : Delta) : List (GeminiPart Args) :=
  match delta.toolCalls with
  | some toolCalls => toolCalls.map fun toolCall => .functionCall toolCall.function.name (fmt.args toolCall.function.arguments)
  | none => textParts delta.getContentString

def streamResponseOpenAI2Gemini (estimatePromptTokens : ℤ) (openAIResponse : Chunk) : Option (GeminiChatResponse Args) :=
  let hasContent := openAIResponse.choices.any Choice.hasContent
  let hasFinishReason := openAIResponse.choices.any fun choice => choice.finishReason.isSome
  if !hasContent && !hasFinishReason then none
  else some
    { candidates := openAIResponse.choices.map fun choice =>
        { index := choice.index
          finishReason := choice.finishReason.map geminiFinishReason
          parts := choice.delta.parts fmt }
      usageMetadata := match openAIResponse.usage with
        | none => ⟨estimatePromptTokens, 0, estimatePromptTokens⟩
        | some usage => ⟨usage.promptTokens, usage.completionTokens, usage.totalTokens⟩ }

/-! ## What a client gets -/

def GeminiChatResponse.parts (response : GeminiChatResponse Args) : List (GeminiPart Args) :=
  response.candidates.flatMap GeminiCandidate.parts

def GeminiPart.call? : GeminiPart Args → Option (String × Args)
  | .text _ => none
  | .functionCall name args => some (name, args)

def GeminiPart.textOf : GeminiPart Args → String
  | .text s => s
  | .functionCall .. => ""

def callsOf (parts : List (GeminiPart Args)) : List (String × Args) := parts.filterMap GeminiPart.call?

def textOf (parts : List (GeminiPart Args)) : String := joinMap GeminiPart.textOf parts

/-- A stream with a single choice; chunks without one report usage. -/
structure ChatStream where
  chunks : List Chunk
  single : ∀ chunk ∈ chunks, chunk.choices.length ≤ 1

namespace ChatStream
variable (s : ChatStream)

def choices : List Choice := s.chunks.flatMap Chunk.choices

def toolDeltas : List ToolCallResponse := s.choices.flatMap fun choice => choice.delta.toolCalls.getD []

def aggregated : TextResponse where
  choices :=
    [{ index := 0
       content := joinMap (fun choice => choice.delta.getContentString) s.choices
       toolCalls := aggregateCalls [] s.toolDeltas
       finishReason := ((s.choices.filterMap Choice.finishReason).getLast?).getD "" }]
  promptTokens := (((s.chunks.filterMap Chunk.usage).getLast?).map ChunkUsage.promptTokens).getD 0
  completionTokens := (((s.chunks.filterMap Chunk.usage).getLast?).map ChunkUsage.completionTokens).getD 0

def sent (estimatePromptTokens : ℤ) : List (GeminiPart Args) :=
  (s.chunks.filterMap (streamResponseOpenAI2Gemini fmt estimatePromptTokens)).flatMap GeminiChatResponse.parts

end ChatStream

theorem callsOf_append (as bs : List (GeminiPart Args)) : callsOf (as ++ bs) = callsOf as ++ callsOf bs :=
  filterMap_append

theorem callsOf_textParts (text : String) : callsOf (textParts text : List (GeminiPart Args)) = [] := by
  unfold textParts
  split <;> rfl

theorem textOf_textParts (text : String) : textOf (textParts text : List (GeminiPart Args)) = text := by
  unfold textParts
  split
  · exact String.append_empty
  · next h => exact (not_not.mp h).symm

section Calls
variable {α : Type} (name : α → String) (args : α → Args) (calls : List α)

theorem callsOf_functionCalls :
    callsOf (calls.map fun c => .functionCall (name c) (args c)) = calls.map fun c => (name c, args c) := by
  rw [callsOf, filterMap_map]
  exact congrFun filterMap_eq_map' calls

theorem textOf_functionCalls : textOf (calls.map fun c => .functionCall (name c) (args c)) = "" := by
  rw [textOf, joinMap_map, joinMap_eq_empty_iff]
  exact fun _ _ => rfl

end Calls

theorem parts_of_chunk (estimatePromptTokens : ℤ) (chunk : Chunk) :
    (streamResponseOpenAI2Gemini fmt estimatePromptTokens chunk).elim [] GeminiChatResponse.parts =
      chunk.choices.flatMap fun choice => choice.delta.parts fmt := by
  unfold streamResponseOpenAI2Gemini
  dsimp only
  split
  · next hskip =>
      rw [Option.elim_none, eq_comm, flatMap_eq_nil_iff]
      intro choice hchoice
      rw [Bool.and_eq_true, Bool.not_eq_true', any_eq_false] at hskip
      have hempty := hskip.1 choice hchoice
      simp only [Choice.hasContent, ne_eq, decide_not, Bool.or_eq_true, Bool.not_eq_true', decide_eq_false_iff_not, not_or,
        not_not] at hempty
      unfold Delta.parts
      split
      · next calls hcalls =>
          rw [hcalls, Option.getD_some] at hempty
          rw [hempty.2]
          rfl
      · rw [hempty.1]
        rfl
  · rw [Option.elim_some, GeminiChatResponse.parts, flatMap_map]

namespace ChatStream
variable (s : ChatStream) (estimatePromptTokens : ℤ)

theorem sent_eq : s.sent fmt estimatePromptTokens = s.choices.flatMap fun choice => choice.delta.parts fmt := by
  rw [choices, flatMap_assoc, sent]
  induction s.chunks with
  | nil => rfl
  | cons chunk chunks ih =>
      rw [flatMap_cons, ← ih, ← parts_of_chunk fmt estimatePromptTokens, filterMap_cons]
      cases streamResponseOpenAI2Gemini fmt estimatePromptTokens chunk with
      | none => rfl
      | some response => rfl

theorem callsOf_sent : callsOf (s.sent fmt estimatePromptTokens) =
    s.toolDeltas.map fun call => (call.function.name, fmt.args call.function.arguments) := by
  rw [sent_eq, callsOf, filterMap_flatMap, toolDeltas, map_flatMap]
  refine flatMap_congr fun choice _ => ?_
  unfold Delta.parts
  split
  · next calls hcalls =>
      rw [hcalls]
      exact callsOf_functionCalls _ _ calls
  · next hnone =>
      rw [hnone]
      exact callsOf_textParts _

theorem textOf_sent : textOf (s.sent fmt estimatePromptTokens) =
    joinMap (fun choice => if choice.delta.toolCalls = none then choice.delta.getContentString else "") s.choices := by
  rw [sent_eq, textOf]
  induction s.choices with
  | nil => rfl
  | cons choice choices ih =>
      rw [flatMap_cons, joinMap_append, joinMap]
      congr 1
      unfold Delta.parts
      cases choice.delta.toolCalls with
      | none =>
          exact textOf_textParts _
      | some calls =>
          exact textOf_functionCalls _ _ calls

theorem parts_aggregated : (responseOpenAI2Gemini fmt s.aggregated).parts =
    textParts (joinMap (fun choice => choice.delta.getContentString) s.choices) ++
      (aggregateCalls [] s.toolDeltas).map fun call => .functionCall call.name (fmt.args call.arguments) :=
  append_nil _

/-- A Gemini client gets the calls and the text of the answer exactly if every call came in one delta and no chunk with tool
calls has text. -/
theorem sent_whole_iff :
    (callsOf (s.sent fmt estimatePromptTokens) = callsOf (responseOpenAI2Gemini fmt s.aggregated).parts ∧
      textOf (s.sent fmt estimatePromptTokens) = textOf (responseOpenAI2Gemini fmt s.aggregated).parts) ↔
    ((s.toolDeltas.map fun d => d.begins.index).Nodup ∧
      ∀ choice ∈ s.choices, choice.delta.toolCalls ≠ none → choice.delta.getContentString = "") := by
  have hcalls : callsOf (responseOpenAI2Gemini fmt s.aggregated).parts =
      (aggregateCalls [] s.toolDeltas).map fun call => (call.name, fmt.args call.arguments) := by
    rw [parts_aggregated, callsOf_append, callsOf_textParts, nil_append, callsOf_functionCalls]
  have htext : textOf (responseOpenAI2Gemini fmt s.aggregated).parts =
      joinMap (fun choice => choice.delta.getContentString) s.choices := by
    rw [parts_aggregated, textOf, joinMap_append]
    change textOf _ ++ textOf _ = _
    rw [textOf_textParts, textOf_functionCalls, String.append_empty]
  rw [callsOf_sent, hcalls, textOf_sent, htext]
  refine and_congr ?_ ?_
  · rw [← length_aggregateCalls_eq_iff]
    constructor
    · intro heq
      have hlength := congrArg length heq
      rw [length_map, length_map] at hlength
      exact hlength.symm
    · intro hlength
      rw [aggregateCalls_nodup ((length_aggregateCalls_eq_iff _).mp hlength) (fun d _ => not_mem_nil),
        nil_append, map_map]
      rfl
  · rw [joinMap_eq_joinMap_iff]
    · refine forall₂_congr fun choice _ => ?_
      by_cases hnone : choice.delta.toolCalls = none
      · rw [if_pos hnone]
        exact ⟨fun _ h => absurd hnone h, fun _ => rfl⟩
      · rw [if_neg hnone]
        exact ⟨fun h _ => h.symm, fun h => (h hnone).symm⟩
    · intro choice _
      split
      · exact le_rfl
      · exact Nat.zero_le _

end ChatStream

/-- Objects of string fields, and one text that is read as such. -/
def cityFormat : ArgsFormat (List (String × String)) where
  unmarshal text := if text = "\x7b\"city\":\"Paris\"\x7d" then some [("city", "Paris")] else none
  wrapped text := [("arguments", text)]
  empty := []

def splitArguments : ChatStream where
  chunks :=
    [⟨[⟨0, ⟨none, some [⟨some 0, "call_a", ⟨"weather", "\x7b\"city\":"⟩⟩]⟩, none⟩], none⟩,
      ⟨[⟨0, ⟨none, some [⟨some 0, "", ⟨"", "\"Paris\"\x7d"⟩⟩]⟩, none⟩], none⟩,
      ⟨[⟨0, ⟨none, none⟩, some "tool_calls"⟩], none⟩]
  single := by decide

theorem splitArguments_two_calls : callsOf (splitArguments.sent cityFormat 0) =
        [("weather", [("arguments", "\x7b\"city\":")]), ("", [("arguments", "\"Paris\"\x7d")])] ∧
      callsOf (responseOpenAI2Gemini cityFormat splitArguments.aggregated).parts = [("weather", [("city", "Paris")])] := by
  decide

end HotAI.ToGemini
