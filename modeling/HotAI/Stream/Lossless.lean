import HotAI.Lib.GoStrings
import HotAI.Stream.Content

/-! # When nothing of a stream is lost or moved on the way to a Claude client -/
namespace HotAI.Stream
open HotAI.Lib List String

inductive Part where
  | text
  | thinking
  | input (tool : ℕ)

def Part.ofItem (toolId : ℕ → String) : Part → Item → String
  | .text, .text piece => piece
  | .thinking, .thinking piece => piece
  | .input i, .json id partialJson => if id = some (toolId i) then partialJson else ""
  | _, _ => ""

def Part.ofDelta : Part → Delta → String
  | .text, delta => delta.getContentString
  | .thinking, delta => delta.getReasoningContent
  | .input i, delta => joinMap (fun call => if call.tool = i then call.function.arguments else "") delta.toolCalls

def CallsShown : List ℕ → List ToolCallResponse → Prop
  | _, [] => True
  | tools, call :: calls =>
      (call.function.arguments = "" ∨ call.tool ∈ opened tools call) ∧ CallsShown (opened tools call) calls

def Shown (tools : List ℕ) (delta : Delta) : Mode → Prop
  | .first =>
      (delta.getContentString = "" ∨ delta.getReasoningContent = "") ∧
        (∀ call ∈ delta.toolCalls.head?, call.function.arguments = "" ∨ call.id ≠ "") ∧
        ∀ call ∈ delta.toolCalls.tail, call.function.arguments = ""
  | .later =>
      (delta.getContentString = "" ∨ delta.getReasoningContent = "") ∧ (delta.toolCalls = [] ∨ delta.hasProse = false) ∧
        CallsShown tools delta.toolCalls
  | .skipped => delta.hasProse = false ∧ ∀ call ∈ delta.toolCalls, call.function.arguments = ""

def AllShown : List ℕ → List (Mode × Delta) → Prop
  | _, [] => True
  | tools, (mode, delta) :: rest => Shown tools delta mode ∧ AllShown (openAfter tools delta mode) rest

def starting (delta : Delta) : Mode → List ToolCallResponse
  | .first => delta.toolCalls.head?.toList
  | .later => delta.toolCalls.filter fun call => call.function.name ≠ ""
  | .skipped => []

theorem Part.forall_iff {P : Part → Prop} : (∀ part, P part) ↔ P .text ∧ P .thinking ∧ ∀ i, P (.input i) := by
  refine ⟨fun h => ⟨h _, h _, fun i => h _⟩, fun ⟨htext, hthinking, hinput⟩ part => ?_⟩
  cases part with
  | text => exact htext
  | thinking => exact hthinking
  | input i => exact hinput i

section
variable {toolId : ℕ → String}

theorem hasProse_eq_false {delta : Delta} :
    delta.hasProse = false ↔ delta.getReasoningContent = "" ∧ delta.getContentString = "" := by
  simp [Delta.hasProse]

theorem text_proseSent (delta : Delta) : joinMap (Part.text.ofItem toolId) (proseSent delta) =
    if delta.getReasoningContent = "" then delta.getContentString else "" := by
  unfold proseSent
  split_ifs <;> simp_all [joinMap, Part.ofItem]

theorem thinking_proseSent (delta : Delta) :
    joinMap (Part.thinking.ofItem toolId) (proseSent delta) = delta.getReasoningContent := by
  unfold proseSent
  split_ifs <;> simp_all [joinMap, Part.ofItem]

theorem input_proseSent (delta : Delta) (i : ℕ) : joinMap ((Part.input i).ofItem toolId) (proseSent delta) = "" := by
  unfold proseSent
  split_ifs <;> rfl

variable (tools : List ℕ) (call : ToolCallResponse)

theorem own_piece_le (P : ℕ → Prop) [DecidablePred P] (i : ℕ) :
    (if call.tool = i ∧ P i then call.function.arguments else "").length ≤
      (if call.tool = i then call.function.arguments else "").length := by
  by_cases hi : call.tool = i <;> by_cases hP : P i <;> simp [hi, hP]

theorem own_piece_iff (P : ℕ → Prop) [DecidablePred P] :
    (∀ i, (if call.tool = i ∧ P i then call.function.arguments else "") =
        if call.tool = i then call.function.arguments else "") ↔ call.function.arguments = "" ∨ P call.tool := by
  constructor
  · intro h
    have htool := h call.tool
    by_cases hP : P call.tool
    · exact .inr hP
    · simp only [hP, and_false, if_false, if_true] at htool
      exact .inl htool.symm
  · rintro (hargs | hP) i
    · simp [hargs]
    · by_cases hi : call.tool = i
      · subst hi
        simp [hP]
      · simp [hi]

theorem input_callSent (hinj : Function.Injective toolId) (tools : List ℕ) (call : ToolCallResponse) (i : ℕ) :
    joinMap ((Part.input i).ofItem toolId) (callSent toolId tools call) =
      if call.tool = i ∧ i ∈ opened tools call then call.function.arguments else "" := by
  have hstart : joinMap ((Part.input i).ofItem toolId)
      (if call.function.name ≠ "" then [.tool call.id] else []) = "" := by split <;> rfl
  rw [callSent, joinMap_append, hstart]
  by_cases hargs : call.function.arguments = ""
  · simp [hargs, joinMap]
  · rw [if_pos hargs]
    simp only [joinMap, Part.ofItem, append_empty, slot]
    by_cases hi : call.tool = i
    · subst hi
      by_cases hopen : call.tool ∈ opened tools call <;> simp [hopen]
    · have hne : toolId call.tool ≠ toolId i := fun h => hi (hinj h)
      by_cases hopen : call.tool ∈ opened tools call <;> simp [hopen, hi, hne]

theorem prose_callsSent (tools : List ℕ) (calls : List ToolCallResponse) :
    joinMap (Part.text.ofItem toolId) (callsSent toolId tools calls) = "" ∧
      joinMap (Part.thinking.ofItem toolId) (callsSent toolId tools calls) = "" := by
  induction calls generalizing tools with
  | nil => exact ⟨rfl, rfl⟩
  | cons call calls ih =>
    obtain ⟨htext, hthinking⟩ := ih (opened tools call)
    rw [callsSent, joinMap_append, joinMap_append, htext, hthinking, callSent]
    split_ifs <;> exact ⟨rfl, rfl⟩

theorem prose_firstCallSent (calls : List ToolCallResponse) : joinMap (Part.text.ofItem toolId) (firstCallSent calls) = "" ∧
      joinMap (Part.thinking.ofItem toolId) (firstCallSent calls) = "" := by
  cases calls with
  | nil => exact ⟨rfl, rfl⟩
  | cons call calls =>
    unfold firstCallSent
    dsimp only
    split_ifs <;> exact ⟨rfl, rfl⟩

theorem callsSent_le (hinj : Function.Injective toolId) (tools : List ℕ) (calls : List ToolCallResponse) (i : ℕ) :
    (joinMap ((Part.input i).ofItem toolId) (callsSent toolId tools calls)).length ≤
      (joinMap (fun call => if call.tool = i then call.function.arguments else "") calls).length := by
  induction calls generalizing tools with
  | nil => exact le_rfl
  | cons call calls ih =>
    rw [callsSent, joinMap_append, input_callSent hinj, joinMap, String.length_append, String.length_append]
    exact Nat.add_le_add (own_piece_le call (· ∈ opened tools call) i) (ih _)

theorem callsSent_iff (hinj : Function.Injective toolId) (tools : List ℕ) (calls : List ToolCallResponse) :
    (∀ i, joinMap ((Part.input i).ofItem toolId) (callsSent toolId tools calls) =
        joinMap (fun call => if call.tool = i then call.function.arguments else "") calls) ↔ CallsShown tools calls := by
  induction calls generalizing tools with
  | nil => exact ⟨fun _ => trivial, fun _ _ => rfl⟩
  | cons call calls ih =>
    rw [CallsShown, ← own_piece_iff call (· ∈ opened tools call), ← ih, ← forall_and]
    refine forall_congr' fun i => ?_
    rw [callsSent, joinMap_append, input_callSent hinj]
    exact append_eq_append_iff_of_length_le (own_piece_le call (· ∈ opened tools call) i) (callsSent_le hinj _ _ _)

theorem arguments_eq_empty_iff (calls : List ToolCallResponse) :
    (∀ i, "" = joinMap (fun call => if call.tool = i then call.function.arguments else "") calls) ↔
      ∀ call ∈ calls, call.function.arguments = "" := by
  simp only [eq_comm (a := ""), joinMap_eq_empty_iff]
  constructor
  · intro h call hcall
    simpa using h call.tool call hcall
  · intro h i call hcall
    rw [h call hcall, ite_self]

section
variable (hinj : Function.Injective toolId) (hne : ∀ i, toolId i ≠ "")
include hinj hne

theorem input_firstCallSent {call : ToolCallResponse} (hid : call.id = toolId call.tool ∨ call.id = "")
    (calls : List ToolCallResponse) (i : ℕ) :
    joinMap ((Part.input i).ofItem toolId) (firstCallSent (call :: calls)) =
      if call.tool = i ∧ call.id ≠ "" then call.function.arguments else "" := by
  have hiff : call.id = toolId i ↔ call.tool = i ∧ call.id ≠ "" := by
    constructor
    · intro h
      exact ⟨hinj ((hid.resolve_right (h ▸ hne i)).symm.trans h), h ▸ hne i⟩
    · rintro ⟨rfl, h⟩
      exact hid.resolve_right h
  unfold firstCallSent
  by_cases hargs : call.function.arguments = ""
  · simp [hargs, joinMap, Part.ofItem]
  · simp [hargs, joinMap, Part.ofItem, hiff]

variable {calls : List ToolCallResponse} {hs : List (Mode × Delta)} {delta : Delta}

section
variable (hid : ∀ call ∈ calls, call.id = toolId call.tool ∨ call.id = "")
include hid

theorem firstCallSent_le (i : ℕ) : (joinMap ((Part.input i).ofItem toolId) (firstCallSent calls)).length ≤
      (joinMap (fun call => if call.tool = i then call.function.arguments else "") calls).length := by
  cases calls with
  | nil => exact le_rfl
  | cons call calls =>
    rw [input_firstCallSent hinj hne (hid call mem_cons_self), joinMap, String.length_append]
    exact Nat.le_add_right_of_le (own_piece_le call (fun _ => call.id ≠ "") i)

theorem firstCallSent_iff : (∀ i, joinMap ((Part.input i).ofItem toolId) (firstCallSent calls) =
        joinMap (fun call => if call.tool = i then call.function.arguments else "") calls) ↔
      (∀ call ∈ calls.head?, call.function.arguments = "" ∨ call.id ≠ "") ∧
        ∀ call ∈ calls.tail, call.function.arguments = "" := by
  cases calls with
  | nil => simp [firstCallSent, joinMap]
  | cons call calls =>
    have hhead : (∀ c ∈ (call :: calls).head?, c.function.arguments = "" ∨ c.id ≠ "") ↔
        call.function.arguments = "" ∨ call.id ≠ "" := by simp
    rw [hhead, tail_cons, ← own_piece_iff call fun _ => call.id ≠ "", ← arguments_eq_empty_iff calls, ← forall_and]
    refine forall_congr' fun i => ?_
    rw [input_firstCallSent hinj hne (hid call mem_cons_self), joinMap]
    exact Iff.trans (by rw [append_empty]) (append_eq_append_iff_of_length_le (b := "")
      (own_piece_le call (fun _ => call.id ≠ "") i) (Nat.zero_le _))

end

section
variable (hid : ∀ call ∈ delta.toolCalls, call.id = toolId call.tool ∨ call.id = "")
include hid

theorem sent_le (tools : List ℕ) (mode : Mode) (part : Part) :
    (joinMap (part.ofItem toolId) (sent toolId tools delta mode)).length ≤ (part.ofDelta delta).length := by
  have hprose : (joinMap (part.ofItem toolId) (proseSent delta)).length ≤ (part.ofDelta delta).length := by
    cases part with
    | text => rw [text_proseSent]; split <;> simp [Part.ofDelta]
    | thinking => rw [thinking_proseSent]; exact le_rfl
    | input i => rw [input_proseSent]; exact Nat.zero_le _
  cases mode with
  | skipped => exact Nat.zero_le _
  | later =>
    unfold sent
    dsimp only
    split
    · obtain ⟨htext, hthinking⟩ := @prose_callsSent toolId tools delta.toolCalls
      cases part with
      | text => rw [htext]; exact Nat.zero_le _
      | thinking => rw [hthinking]; exact Nat.zero_le _
      | input i => exact callsSent_le hinj tools _ i
    · exact hprose
  | first =>
    unfold sent
    rw [joinMap_append]
    cases part with
    | text => rw [(prose_firstCallSent delta.toolCalls).1]; exact hprose
    | thinking => rw [(prose_firstCallSent delta.toolCalls).2]; exact hprose
    | input i => rw [input_proseSent, append_empty]; exact firstCallSent_le hinj hne hid i

theorem sent_iff (tools : List ℕ) (mode : Mode) :
    (∀ part : Part, joinMap (part.ofItem toolId) (sent toolId tools delta mode) = part.ofDelta delta) ↔
      Shown tools delta mode := by
  have htext : (if delta.getReasoningContent = "" then delta.getContentString else "") = delta.getContentString ↔
      delta.getContentString = "" ∨ delta.getReasoningContent = "" := by
    by_cases h : delta.getReasoningContent = ""
    · simp only [h, if_true, or_true]
    · simp only [h, if_false, or_false]
      exact eq_comm
  rw [Part.forall_iff]
  cases mode with
  | skipped =>
    rw [Shown, hasProse_eq_false, ← arguments_eq_empty_iff]
    simp only [sent, joinMap, Part.ofDelta, eq_comm (a := ""), and_assoc, and_left_comm]
  | first =>
    rw [Shown, ← firstCallSent_iff hinj hne hid, ← htext]
    simp only [sent, joinMap_append, prose_firstCallSent, empty_append, text_proseSent, thinking_proseSent,
      input_proseSent, append_empty, Part.ofDelta, true_and]
  | later =>
    rw [Shown, ← callsSent_iff hinj]
    by_cases hcalls : delta.toolCalls = []
    · simp only [sent, hcalls, ne_eq, not_true_eq_false, if_false, text_proseSent, thinking_proseSent, input_proseSent,
        Part.ofDelta, htext, callsSent, joinMap, true_or, implies_true, and_self, and_true]
    · simp only [sent, ne_eq, hcalls, not_false_eq_true, if_true, prose_callsSent, Part.ofDelta, false_or,
        hasProse_eq_false, eq_comm (a := "")]
      tauto

end

section
variable (hid : ∀ h ∈ hs, ∀ call ∈ h.2.toolCalls, call.id = toolId call.tool ∨ call.id = "")
include hid

theorem sentAll_le (tools : List ℕ) (part : Part) :
    (joinMap (part.ofItem toolId) (sentAll toolId tools hs)).length ≤ (joinMap (fun h => part.ofDelta h.2) hs).length := by
  induction hs generalizing tools with
  | nil => exact le_rfl
  | cons h hs ih =>
    obtain ⟨hh, hhs⟩ := forall_mem_cons.mp hid
    rw [sentAll, joinMap_append, joinMap, String.length_append, String.length_append]
    exact Nat.add_le_add (sent_le hinj hne hh tools h.1 part) (ih hhs _)

theorem sentAll_iff (tools : List ℕ) : (∀ part : Part, joinMap (part.ofItem toolId) (sentAll toolId tools hs) =
        joinMap (fun h => part.ofDelta h.2) hs) ↔ AllShown tools hs := by
  induction hs generalizing tools with
  | nil => exact ⟨fun _ => trivial, fun _ _ => rfl⟩
  | cons h hs ih =>
    obtain ⟨hh, hhs⟩ := forall_mem_cons.mp hid
    rw [AllShown, ← sent_iff hinj hne hh, ← ih hhs, ← forall_and]
    refine forall_congr' fun part => ?_
    rw [sentAll, joinMap_append]
    exact append_eq_append_iff_of_length_le (sent_le hinj hne hh tools h.1 part) (sentAll_le hinj hne hhs _ part)

end

end

/-! ## Blocks of tools -/

theorem tool_mem_proseSent (delta : Delta) (id : String) : Item.tool id ∉ proseSent delta := by
  unfold proseSent
  split_ifs <;> simp

theorem tool_mem_callsSent (calls : List ToolCallResponse) (id : String) :
    Item.tool id ∈ callsSent toolId tools calls ↔ ∃ call ∈ calls.filter fun call => call.function.name ≠ "", call.id = id := by
  induction calls generalizing tools with
  | nil => simp [callsSent]
  | cons call calls ih =>
    have hcall : Item.tool id ∈ callSent toolId tools call ↔ call.function.name ≠ "" ∧ call.id = id := by
      unfold callSent
      by_cases hname : call.function.name = "" <;> by_cases hargs : call.function.arguments = "" <;>
        simp [hname, hargs, @eq_comm _ id]
    rw [callsSent, mem_append, hcall, ih]
    by_cases hname : call.function.name = "" <;> simp [hname]

theorem tool_mem_sent (delta : Delta) (mode : Mode) (id : String) :
    Item.tool id ∈ sent toolId tools delta mode ↔ ∃ call ∈ starting delta mode, call.id = id := by
  have hprose := tool_mem_proseSent delta id
  cases mode with
  | skipped => simp [sent, starting]
  | first =>
    simp only [sent, mem_append, hprose, or_false, starting]
    cases delta.toolCalls with
    | nil => simp [firstCallSent]
    | cons call calls =>
      unfold firstCallSent
      dsimp only
      split_ifs <;> simp [eq_comm]
  | later =>
    simp only [sent, starting]
    by_cases hcalls : delta.toolCalls = []
    · simp [hcalls, hprose]
    · rw [if_pos hcalls, tool_mem_callsSent]

theorem tool_mem_sentAll (hs : List (Mode × Delta)) (id : String) :
    Item.tool id ∈ sentAll toolId tools hs ↔ ∃ h ∈ hs, ∃ call ∈ starting h.2 h.1, call.id = id := by
  induction hs generalizing tools with
  | nil => simp [sentAll]
  | cons h hs ih => simp [sentAll, tool_mem_sent, ih]

end

/-! ## The stream -/

/-- The client reads the text, the reasoning and the input of each tool, and gets a block for each tool. -/
structure NothingLost (s : ChatStream) (events : List ClaudeEvent) : Prop where
  content : ∀ part : Part, joinMap (part.ofItem s.toolId) (receiveAll Slots.empty events).2 = joinMap part.ofDelta s.upstream
  started : ∀ delta ∈ s.upstream, ∀ call ∈ delta.toolCalls,
    Item.tool (s.toolId call.tool) ∈ (receiveAll Slots.empty events).2

/-- Nothing is lost or moved exactly if no delta hides part of itself, no tool gets arguments after other content came since
its introduction, and each is introduced where that is looked at. -/
theorem ChatStream.nothing_lost_iff (s : ChatStream) (e : ℤ) (isAudioModel : Bool) (estimate : Usage) :
    NothingLost s (claudeStreamHandler e isAudioModel estimate s.chunks) ↔
      AllShown [] s.handled ∧ ∀ delta ∈ s.upstream, ∀ call ∈ delta.toolCalls,
        ∃ h ∈ s.handled, ∃ start ∈ starting h.2 h.1, start.id = s.toolId call.tool := by
  have hreceived := s.received_eq_sentAll e isAudioModel estimate
  have hid : ∀ h ∈ s.handled, ∀ call ∈ h.2.toolCalls, call.id = s.toolId call.tool ∨ call.id = "" := by
    intro h hh call hcall
    have hmem : h.2 ∈ s.upstream := s.handled_upstream ▸ mem_map_of_mem hh
    exact (s.tagged h.2 hmem call hcall).imp_right And.left
  have hshown := sentAll_iff s.toolId_injective s.toolId_ne hid []
  have hupstream : ∀ part : Part, joinMap part.ofDelta s.upstream = joinMap (fun h => part.ofDelta h.2) s.handled := by
    intro part
    rw [← s.handled_upstream, joinMap_map]
  constructor
  · rintro ⟨hcontent, hstarted⟩
    rw [hreceived] at hcontent hstarted
    refine ⟨hshown.mp fun part => (hcontent part).trans (hupstream part), fun delta hdelta call hcall => ?_⟩
    exact (tool_mem_sentAll _ _ _).mp (hstarted delta hdelta call hcall)
  · rintro ⟨hall, hstarts⟩
    refine ⟨fun part => ?_, fun delta hdelta call hcall => ?_⟩
    · rw [hreceived, hupstream]
      exact hshown.mpr hall part
    · rw [hreceived]
      exact (tool_mem_sentAll _ _ _).mpr (hstarts delta hdelta call hcall)

def mixedStream : ChatStream where
  id := "r"
  model := "m"
  deltas := [(⟨none, none, none, []⟩, none), (⟨some "hi", some "hm", none, []⟩, none)]
  finish := ⟨none, none, none, []⟩
  finishReason := "stop"
  finishReason_ne h := by simp at h
  finishUsage := some ⟨5, 1, 0, 0, 0, 0⟩
  usageOnly := none
  toolId i := String.ofList (List.replicate (i + 1) 'c')
  toolId_ne i := by simp [replicate_succ]
  toolId_injective i j h := by
    have hlength := congrArg (List.length ∘ String.toList) h
    simpa using hlength
  indexed := rfl
  tagged := by simp

theorem mixed_chunk_text_lost :
    ¬ NothingLost mixedStream (claudeStreamHandler 5 false ⟨5, 1, 0, 0, 0, 0⟩ mixedStream.chunks) ∧
      (receiveAll Slots.empty (claudeStreamHandler 5 false ⟨5, 1, 0, 0, 0, 0⟩ mixedStream.chunks)).2 = [.thinking "hm"] := by
  have hitems : (receiveAll Slots.empty (claudeStreamHandler 5 false ⟨5, 1, 0, 0, 0, 0⟩ mixedStream.chunks)).2 =
      [.thinking "hm"] := by decide +kernel
  refine ⟨fun h => ?_, hitems⟩
  have htext := h.content .text
  rw [hitems] at htext
  revert htext
  decide +kernel

end HotAI.Stream
