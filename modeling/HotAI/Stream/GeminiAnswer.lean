import HotAI.Stream.GeminiUpstream

/-! # Thoughts, answer and calls of Gemini

Both converters keep the parts of a candidate in order, with line breaks of their own between them, and leave out a text
that is a lone line break. A result is compared without these. -/
namespace HotAI.GeminiUpstream
open HotAI.Lib HotAI.Stream List

/-! ## What is said -/

def visible (letters : List Letter) : List Char := letters.filterMap fun
  | .said c => some c
  | .separator => none

theorem visible_append (s t : List Letter) : visible (s ++ t) = visible s ++ visible t := filterMap_append

theorem visible_write (w : Written) (text : String) : visible (w.write text).content = visible w.content ++ text.toList := by
  have hsaid : visible (text.toList.map .said) = text.toList := by
    rw [visible, filterMap_map]
    exact filterMap_some
  rw [Written.write, visible_append, hsaid]
  split
  · rw [visible_append]
    exact congrArg (· ++ _) (append_nil _)
  · rfl

def Part.plain : Part → Bool
  | .functionCall _ | .thought _ | .text _ => true
  | _ => false

def Part.thoughtText : Part → Option String
  | .thought said => some said
  | _ => none

/-- A lone line break is not part of the answer. -/
def Part.answerText : Part → Option String
  | .text said => if said = "\n" then none else some said
  | _ => none

def Part.call : Part → Option FunctionCall
  | .functionCall call => some call
  | _ => none

def thoughts (parts : List Part) : List String := parts.filterMap Part.thoughtText

def texts (parts : List Part) : List String := parts.filterMap Part.answerText

def calls (parts : List Part) : List FunctionCall := parts.filterMap Part.call

def textChars (parts : List Part) : List Char := (texts parts).flatMap String.toList

variable (ps qs : List Part)

theorem calls_append : calls (ps ++ qs) = calls ps ++ calls qs := filterMap_append

theorem textChars_append : textChars (ps ++ qs) = textChars ps ++ textChars qs := by
  rw [textChars, texts, filterMap_append, flatMap_append]
  rfl

variable (uuids : Uuids)

def namedCalls (made : ℕ) : List FunctionCall → List ToolCallResponse
  | [] => []
  | call :: rest => getResponseToolCall uuids made call :: namedCalls (made + 1) rest

structure TextParts (s : TextState) (parts : List Part) (result : TextState) : Prop where
  content : visible result.written.content = visible s.written.content ++ textChars parts
  reasoning : result.reasoningContent = (thoughts parts).getLast?.or s.reasoningContent
  toolCalls : result.toolCalls = s.toolCalls ++ namedCalls uuids s.made (calls parts)
  finishReason : result.finishReason = if calls parts = [] then s.finishReason else "tool_calls"

variable {parts : List Part}

theorem textPart_text (s : TextState) (text : String) : ∃ w : Written, textPart uuids s (.text text) = { s with written := w } ∧
    visible w.content = visible s.written.content ++ textChars [.text text] := by
  by_cases hbreak : text = "\n"
  · exact ⟨s.written, if_pos hbreak, by rw [hbreak]; exact (append_nil _).symm⟩
  · refine ⟨_, if_neg hbreak, (visible_write ..).trans ?_⟩
    simp [textChars, texts, Part.answerText, hbreak]

theorem textParts (hplain : ∀ part ∈ parts, part.plain = true) (s : TextState) :
    TextParts uuids s parts (parts.foldl (textPart uuids) s) := by
  induction parts generalizing s with
  | nil =>
    refine ⟨(append_nil _).symm, rfl, (append_nil _).symm, rfl⟩
  | cons part parts ih =>
    have hrest := fun s => ih (fun p hp => hplain p (mem_cons_of_mem _ hp)) s
    have hpart := hplain part mem_cons_self
    cases part with
    | inlineData => cases hpart
    | executableCode => cases hpart
    | codeExecutionResult => cases hpart
    | functionCall call =>
      obtain ⟨hcontent, hreasoning, htools, hfinish⟩ := hrest (textPart uuids s (.functionCall call))
      refine ⟨hcontent, hreasoning, ?_, ?_⟩
      · rw [foldl_cons, htools]
        exact append_assoc ..
      · rw [foldl_cons, hfinish]
        split <;> rfl
    | thought text =>
      obtain ⟨hcontent, hreasoning, htools, hfinish⟩ := hrest (textPart uuids s (.thought text))
      refine ⟨hcontent, ?_, htools, hfinish⟩
      rw [foldl_cons, hreasoning]
      show _ = (text :: thoughts parts).getLast?.or s.reasoningContent
      rw [getLast?_cons]
      cases (thoughts parts).getLast? <;> rfl
    | text text =>
      obtain ⟨w, hpart, hw⟩ := textPart_text uuids s text
      obtain ⟨hcontent, hreasoning, htools, hfinish⟩ := hrest { s with written := w }
      rw [foldl_cons, hpart]
      refine ⟨?_, hreasoning, htools, hfinish⟩
      rw [hcontent, hw, append_assoc, ← textChars_append]
      rfl

def OneThought (parts : List Part) : Prop := ∀ text ∈ (thoughts parts).dropLast, text = ""

variable {candidate : Candidate}

section
variable (hplain : ∀ part ∈ candidate.parts, part.plain = true)
include hplain

end

def CallsLast (candidates : List Candidate) : Prop :=
  candidates.Pairwise fun earlier later => calls earlier.parts ≠ [] → calls later.parts ≠ []

def Part.spoken (part : Part) : Option String := part.thoughtText.or part.answerText

def spokenChars (parts : List Part) : List Char := (parts.filterMap Part.spoken).flatMap String.toList

theorem spokenChars_append : spokenChars (ps ++ qs) = spokenChars ps ++ spokenChars qs := by
  rw [spokenChars, filterMap_append, flatMap_append]
  rfl

/-- The calls with their ids and with indices from `base` on. -/
def numberedCalls (base made : ℕ) : List FunctionCall → List ToolCallResponse
  | [] => []
  | call :: rest => { getResponseToolCall uuids made call with index := some base } :: numberedCalls (base + 1) (made + 1) rest

structure DeltaParts (s : DeltaState) (parts : List Part) (result : DeltaState) : Prop where
  written : visible result.written.content = visible s.written.content ++ spokenChars parts
  isThought : result.isThought = true ↔ s.isThought = true ∨ thoughts parts ≠ []
  isTools : result.isTools = true ↔ s.isTools = true ∨ calls parts ≠ []
  toolCalls : result.toolCalls = s.toolCalls ++ numberedCalls uuids s.toolCalls.length s.made (calls parts)
  made : result.made = s.made + (calls parts).length

theorem deltaPart_text (s : DeltaState) (text : String) : ∃ w : Written, deltaPart uuids s (.text text) = { s with written := w } ∧
    visible w.content = visible s.written.content ++ spokenChars [.text text] := by
  by_cases hbreak : text = "\n"
  · exact ⟨s.written, if_pos hbreak, by rw [hbreak]; exact (append_nil _).symm⟩
  · refine ⟨_, if_neg hbreak, (visible_write ..).trans ?_⟩
    simp [spokenChars, Part.spoken, Part.thoughtText, Part.answerText, hbreak]

theorem deltaParts (hplain : ∀ part ∈ parts, part.plain = true) (s : DeltaState) :
    DeltaParts uuids s parts (parts.foldl (deltaPart uuids) s) := by
  induction parts generalizing s with
  | nil =>
    refine ⟨(append_nil _).symm, ?_, ?_, (append_nil _).symm, rfl⟩
    · exact (or_iff_left fun h => h rfl).symm
    · exact (or_iff_left fun h => h rfl).symm
  | cons part parts ih =>
    have hrest := fun s => ih (fun p hp => hplain p (mem_cons_of_mem _ hp)) s
    have hpart := hplain part mem_cons_self
    cases part with
    | inlineData => cases hpart
    | executableCode => cases hpart
    | codeExecutionResult => cases hpart
    | functionCall call =>
      obtain ⟨hwritten, hthought, htools, hcalls, hmade⟩ := hrest (deltaPart uuids s (.functionCall call))
      refine ⟨hwritten, hthought, ?_, ?_, ?_⟩
      · rw [foldl_cons, htools]
        exact iff_of_true (Or.inl rfl) (Or.inr (cons_ne_nil _ _))
      · have hlength : (deltaPart uuids s (.functionCall call)).toolCalls.length = s.toolCalls.length + 1 := length_append
        rw [foldl_cons, hcalls, hlength]
        exact append_assoc ..
      · rw [foldl_cons, hmade]
        exact Nat.add_right_comm s.made 1 _
    | thought text =>
      obtain ⟨hwritten, hthought, htools, hcalls, hmade⟩ := hrest (deltaPart uuids s (.thought text))
      refine ⟨?_, ?_, htools, hcalls, hmade⟩
      · rw [foldl_cons, hwritten]
        have hsaid : visible (deltaPart uuids s (.thought text)).written.content = visible s.written.content ++ text.toList :=
          visible_write ..
        rw [hsaid, append_assoc]
        rfl
      · rw [foldl_cons, hthought]
        exact iff_of_true (Or.inl rfl) (Or.inr (cons_ne_nil _ _))
    | text text =>
      obtain ⟨w, hpart, hw⟩ := deltaPart_text uuids s text
      obtain ⟨hwritten, hthought, htools, hcalls, hmade⟩ := hrest { s with written := w }
      rw [foldl_cons, hpart]
      refine ⟨?_, hthought, htools, hcalls, hmade⟩
      rw [hwritten, hw, append_assoc, ← spokenChars_append]
      rfl

end HotAI.GeminiUpstream
