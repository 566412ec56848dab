import HotAI.Stream.Message
import Mathlib.Logic.Function.Basic

/-! # What a Claude client reads out of the events

Texts, thoughts and pieces of tool input, each under the tool block started last at its index. The converter's state decides
only where tool input goes: to the tools introduced since text or reasoning last came between. -/
namespace HotAI.Stream
open HotAI.Lib List Function

inductive Item where
  | text (text : String)
  | thinking (thinking : String)
  | tool (id : String)
  | json (id : Option String) (partialJson : String)
deriving DecidableEq, Repr

/-- The id of the tool block started last at each index. -/
abbrev Slots := ℕ → Option String

def Slots.empty : Slots := fun _ => none

def receive (slots : Slots) : ClaudeEvent → Slots × List Item
  | .contentBlockStart i (.toolUse id _) => (Function.update slots i (some id), [.tool id])
  | .contentBlockStart i .text => (Function.update slots i none, [])
  | .contentBlockStart i .thinking => (Function.update slots i none, [])
  | .contentBlockDelta _ (.textDelta text) => (slots, [.text text])
  | .contentBlockDelta _ (.thinkingDelta thinking) => (slots, [.thinking thinking])
  | .contentBlockDelta i (.inputJsonDelta partialJson) => (slots, [.json (slots i) partialJson])
  | .messageStart _ _ _ | .contentBlockStop _ | .messageDelta _ _ | .messageStop => (slots, [])

def receiveAll (slots : Slots) : List ClaudeEvent → Slots × List Item
  | [] => (slots, [])
  | event :: events =>
      let r := receive slots event
      let rs := receiveAll r.1 events
      (rs.1, r.2 ++ rs.2)

theorem receiveAll_cons (slots : Slots) (event : ClaudeEvent) (events : List ClaudeEvent) :
    receiveAll slots (event :: events) = ((receiveAll (receive slots event).1 events).1,
      (receive slots event).2 ++ (receiveAll (receive slots event).1 events).2) := rfl

theorem receiveAll_append (slots : Slots) (as bs : List ClaudeEvent) :
    receiveAll slots (as ++ bs) = ((receiveAll (receiveAll slots as).1 bs).1,
      (receiveAll slots as).2 ++ (receiveAll (receiveAll slots as).1 bs).2) := by
  induction as generalizing slots with
  | nil => rfl
  | cons a as ih => rw [cons_append, receiveAll_cons, ih, receiveAll_cons, append_assoc]

variable {as : List ClaudeEvent}

theorem receiveAll_append_of {slots slots' : Slots} {items : List Item}
    (h : receiveAll slots as = (slots', items)) (bs : List ClaudeEvent) :
    receiveAll slots (as ++ bs) = ((receiveAll slots' bs).1, items ++ (receiveAll slots' bs).2) := by
  rw [receiveAll_append, h]

def Silent (events : List ClaudeEvent) : Prop := ∀ slots, receiveAll slots events = (slots, [])

theorem silent_nil : Silent [] := fun _ => rfl

theorem Silent.append {as bs : List ClaudeEvent} (has : Silent as) (hbs : Silent bs) : Silent (as ++ bs) := fun slots => by
  rw [receiveAll_append_of (has slots), hbs slots, nil_append]

theorem Silent.receive_append (h : Silent as) (slots : Slots) (bs : List ClaudeEvent) :
    receiveAll slots (as ++ bs) = receiveAll slots bs := by
  rw [receiveAll_append_of (h slots), nil_append]

theorem Silent.items_append {bs : List ClaudeEvent} (h : Silent bs) (slots : Slots) (as : List ClaudeEvent) :
    (receiveAll slots (as ++ bs)).2 = (receiveAll slots as).2 := by
  rw [receiveAll_append, h, append_nil]

theorem silent_stops (indices : List ℕ) : Silent (indices.map .contentBlockStop) := by
  induction indices with
  | nil => exact silent_nil
  | cons i indices ih =>
    intro slots
    rw [map_cons, receiveAll_cons, ih]
    rfl

theorem silent_stopOpenBlocks (info : ConvertInfo) : Silent (stopOpenBlocks info) := by
  unfold stopOpenBlocks
  cases info.lastMessagesType with
  | none => exact silent_nil
  | text => exact silent_stops [info.index]
  | thinking => exact silent_stops [info.index]
  | tools =>
    have hmap := silent_stops ((range (info.toolCallMaxIndexOffset + 1)).map (info.toolCallBaseIndex + ·))
    rwa [map_map] at hmap

theorem silent_advance (info : ConvertInfo) : Silent (stopOpenBlocksAndAdvance info).2 := by
  rw [stopOpenBlocksAndAdvance_snd]
  exact silent_stopOpenBlocks info

theorem silent_closeMessage (chunkUsage : Option Usage) (stopReason : String) (info : ConvertInfo) :
    Silent (closeMessage chunkUsage stopReason info).2 := by
  refine ((silent_stopOpenBlocks info).append ?_).append fun slots => rfl
  cases chunkUsage <;> cases info.usage <;> exact fun slots => rfl

/-! ## What of a delta is sent on -/

def ToolCallResponse.tool (call : ToolCallResponse) : ℕ := call.index.getD 0

def proseSent (delta : Delta) : List Item :=
  if delta.getReasoningContent ≠ "" then [.thinking delta.getReasoningContent]
  else if delta.getContentString ≠ "" then [.text delta.getContentString]
  else []

def opened (tools : List ℕ) (call : ToolCallResponse) : List ℕ :=
  if call.function.name ≠ "" then call.tool :: tools else tools

section
variable (toolId : ℕ → String)

def slot (tools : List ℕ) (i : ℕ) : Option String := if i ∈ tools then some (toolId i) else none

def callSent (tools : List ℕ) (call : ToolCallResponse) : List Item :=
  (if call.function.name ≠ "" then [.tool call.id] else []) ++
    (if call.function.arguments ≠ "" then [.json (slot toolId (opened tools call) call.tool) call.function.arguments]
      else [])

def callsSent (tools : List ℕ) : List ToolCallResponse → List Item
  | [] => []
  | call :: calls => callSent toolId tools call ++ callsSent (opened tools call) calls

inductive Mode where
  | first
  | later
  | skipped
deriving DecidableEq, Repr

def firstCallSent : List ToolCallResponse → List Item
  | [] => []
  | call :: _ =>
      .tool call.id :: (if call.function.arguments ≠ "" then [.json (some call.id) call.function.arguments] else [])

def sent (tools : List ℕ) (delta : Delta) : Mode → List Item
  | .first => firstCallSent delta.toolCalls ++ proseSent delta
  | .later => if delta.toolCalls ≠ [] then callsSent toolId tools delta.toolCalls else proseSent delta
  | .skipped => []

def openAfter (tools : List ℕ) (delta : Delta) : Mode → List ℕ
  | .first => if delta.hasProse then [] else (delta.toolCalls.head?.map ToolCallResponse.tool).toList
  | .later =>
      if delta.toolCalls ≠ [] then delta.toolCalls.foldl opened tools
      else if delta.hasProse then []
      else tools
  | .skipped => tools

/-! ## The converter's state and the slots -/

structure Tracks (info : ConvertInfo) (slots : Slots) (tools : List ℕ) : Prop where
  fresh : ∀ k, (stopOpenBlocksAndAdvance info).1.index ≤ k → slots k = none
  run : info.lastMessagesType = .tools → ∀ i, slots (info.toolCallBaseIndex + i) = slot toolId tools i
  other : info.lastMessagesType ≠ .tools → tools = []

/-- The index belongs to the tool, and a call that names the tool has its id. -/
structure Tagged (call : ToolCallResponse) : Prop where
  index : call.index = some call.tool
  id : call.function.name ≠ "" → call.id = toolId call.tool

variable {toolId} {info : ConvertInfo} {slots : Slots} {tools : List ℕ}

theorem Tracks.congr {info' : ConvertInfo} (h : Tracks toolId info slots tools)
    (hlast : info'.lastMessagesType = info.lastMessagesType) (hindex : info'.index = info.index)
    (hbase : info'.toolCallBaseIndex = info.toolCallBaseIndex)
    (hmax : info'.toolCallMaxIndexOffset = info.toolCallMaxIndexOffset) : Tracks toolId info' slots tools := by
  refine ⟨fun k hk => h.fresh k ?_, fun htools => ?_, fun hother => h.other (hlast ▸ hother)⟩
  · have hadvance : (stopOpenBlocksAndAdvance info').1.index = (stopOpenBlocksAndAdvance info).1.index := by
      unfold stopOpenBlocksAndAdvance
      rw [hlast]
      cases info.lastMessagesType <;> simp only [hindex, hbase, hmax]
    exact hadvance ▸ hk
  · rw [hbase]
    exact h.run (hlast ▸ htools)

variable {call : ToolCallResponse}

theorem slot_opened (hname : call.function.name ≠ "") (i : ℕ) :
    slot toolId (opened tools call) i = if i = call.tool then some (toolId call.tool) else slot toolId tools i := by
  unfold slot opened
  rw [if_pos hname]
  by_cases hi : i = call.tool
  · subst hi
    simp
  · simp [hi]

theorem receive_call {base : ℕ} (htools : ∀ i, slots (base + i) = slot toolId tools i)
    (htag : Tagged toolId call) : ∃ slots', receiveAll slots (toolCallEvents base call.tool call) =
        (slots', callSent toolId tools call) ∧ (∀ i, slots' (base + i) = slot toolId (opened tools call) i) ∧
      ∀ i, i ≠ call.tool → slots' (base + i) = slots (base + i) := by
  have hpiece : ∀ slots' : Slots, (∀ i, slots' (base + i) = slot toolId (opened tools call) i) →
      receiveAll slots' (if call.function.arguments ≠ "" then
          [.contentBlockDelta (base + call.tool) (.inputJsonDelta call.function.arguments)] else []) =
        (slots', if call.function.arguments ≠ "" then
          [.json (slot toolId (opened tools call) call.tool) call.function.arguments] else []) := by
    intro slots' hslots'
    split
    · rw [receiveAll_cons, receive, hslots']
      rfl
    · rfl
  unfold toolCallEvents callSent
  by_cases hname : call.function.name = ""
  · have hopened : opened tools call = tools := if_neg (not_not.mpr hname)
    refine ⟨slots, ?_, fun i => by rw [hopened, htools], fun _ _ => rfl⟩
    rw [if_neg (not_not.mpr hname), if_neg (not_not.mpr hname)]
    exact hpiece slots fun i => by rw [hopened, htools]
  · have hslots : ∀ i, update slots (base + call.tool) (some call.id) (base + i) =
        slot toolId (opened tools call) i := by
      intro i
      rw [slot_opened hname, htag.id hname]
      by_cases hi : i = call.tool
      · rw [if_pos hi, hi, update_self]
      · rw [if_neg hi, update_of_ne (by omega), htools]
    refine ⟨update slots (base + call.tool) (some call.id), ?_, hslots, fun i hi => ?_⟩
    · rw [if_pos hname, if_pos hname, singleton_append, receiveAll_cons, receive, hpiece _ hslots]
    · rw [update_of_ne (by omega)]

theorem receive_loop {base m : ℕ} (htools : ∀ i, slots (base + i) = slot toolId tools i)
    (hfresh : ∀ i, m < i → slots (base + i) = none) {calls : List ToolCallResponse}
    (htag : ∀ call ∈ calls, Tagged toolId call) (k : ℕ) : ∃ slots',
      receiveAll slots (toolCallLoop base m (calls.zipIdx k)).2 = (slots', callsSent toolId tools calls) ∧
        (∀ i, slots' (base + i) = slot toolId (calls.foldl opened tools) i) ∧
        ∀ i, (toolCallLoop base m (calls.zipIdx k)).1 < i → slots' (base + i) = none := by
  induction calls generalizing slots tools m k with
  | nil => exact ⟨slots, rfl, htools, hfresh⟩
  | cons call calls ih =>
    have hcall := htag call mem_cons_self
    obtain ⟨slots₁, hread₁, htools₁, hkept⟩ := receive_call htools hcall
    have hfresh₁ : ∀ i, max m call.tool < i → slots₁ (base + i) = none := by
      intro i hi
      rw [hkept i (by omega), hfresh i (by omega)]
    obtain ⟨slots₂, hread₂, htools₂, hfresh₂⟩ := ih htools₁ hfresh₁ (fun c hc => htag c (mem_cons_of_mem _ hc)) (k + 1)
    have hoffset : call.index.getD k = call.tool := by rw [hcall.index, Option.getD_some]
    simp only [zipIdx_cons, toolCallLoop, hoffset]
    refine ⟨slots₂, ?_, htools₂, hfresh₂⟩
    rw [receiveAll_append_of hread₁, hread₂]
    rfl

theorem advance_tools (h : info.lastMessagesType = .tools) :
    (stopOpenBlocksAndAdvance info).1.index = info.toolCallBaseIndex + info.toolCallMaxIndexOffset + 1 := by
  simp only [stopOpenBlocksAndAdvance, h]

variable {calls : List ToolCallResponse}

theorem receive_toolDeltas (h : Tracks toolId info slots tools) (htag : ∀ call ∈ calls, Tagged toolId call) : ∃ slots',
      receiveAll slots (toolDeltas calls info).2 = (slots', callsSent toolId tools calls) ∧
        Tracks toolId (toolDeltas calls info).1 slots' (calls.foldl opened tools) := by
  by_cases hlast : info.lastMessagesType = .tools
  · have hfresh : ∀ i, info.toolCallMaxIndexOffset < i → slots (info.toolCallBaseIndex + i) = none := by
      intro i hi
      refine h.fresh _ ?_
      rw [advance_tools hlast]
      omega
    obtain ⟨slots', hread, htools, hfresh'⟩ := receive_loop (h.run hlast) hfresh htag 0
    simp only [toolDeltas, hlast, if_true, nil_append]
    refine ⟨slots', hread, fun k hk => ?_, fun _ => htools, fun hne => absurd rfl hne⟩
    rw [advance_tools rfl] at hk
    dsimp only at hk
    obtain ⟨i, rfl⟩ := Nat.exists_eq_add_of_le (show info.toolCallBaseIndex ≤ k by omega)
    exact hfresh' i (by omega)
  · -- a new run, from the first index no block was started at
    have hnone : ∀ i, slots ((stopOpenBlocksAndAdvance info).1.index + i) = none := fun i => h.fresh _ (by omega)
    have hempty : ∀ i, slots ((stopOpenBlocksAndAdvance info).1.index + i) = slot toolId tools i := by
      intro i
      rw [hnone, h.other hlast]
      rfl
    obtain ⟨slots', hread, htools, hfresh'⟩ := @receive_loop toolId slots tools _ 0 hempty (fun i _ => hnone i) calls htag 0
    simp only [toolDeltas, hlast, if_false]
    refine ⟨slots', ?_, fun k hk => ?_, fun _ => htools, fun hne => absurd rfl hne⟩
    · rw [(silent_advance info).receive_append, hread]
    · rw [advance_tools rfl] at hk
      dsimp only at hk
      obtain ⟨i, rfl⟩ := Nat.exists_eq_add_of_le (show (stopOpenBlocksAndAdvance info).1.index ≤ k by omega)
      exact hfresh' i (by omega)

/-! ## Text and reasoning -/

def BlockDelta.items : BlockDelta → List Item
  | .textDelta text => [.text text]
  | .thinkingDelta thinking => [.thinking thinking]
  | .inputJsonDelta _ => []

theorem firstProseDelta_eq {type : LastMessageType} (block : Block) (delta : BlockDelta)
    (h : info.lastMessagesType ≠ type) : firstProseDelta type block delta info = proseDelta type block delta info := by
  unfold firstProseDelta proseDelta
  rw [if_neg h, if_neg h]

section
variable {type : LastMessageType} {block : Block} {delta : BlockDelta} (hprose : IsProse type block delta)
include hprose

theorem IsProse.receive_delta (slots : Slots) (k : ℕ) :
    receiveAll slots [.contentBlockDelta k delta] = (slots, delta.items) := by
  cases hprose <;> rfl

theorem IsProse.receive_new (slots : Slots) (k : ℕ) :
    receiveAll slots [.contentBlockStart k block, .contentBlockDelta k delta] = (update slots k none, delta.items) := by
  cases hprose <;> rfl

theorem IsProse.ne_tools : type ≠ .tools := by cases hprose <;> exact fun h => (by cases h)

theorem IsProse.advance (info : ConvertInfo) :
    (stopOpenBlocksAndAdvance { info with lastMessagesType := type }).1.index = info.index + 1 := by
  cases hprose <;> rfl

theorem receive_proseDelta (h : Tracks toolId info slots tools) : ∃ slots',
    receiveAll slots (proseDelta type block delta info).2 = (slots', delta.items) ∧
      Tracks toolId (proseDelta type block delta info).1 slots' [] := by
  unfold proseDelta
  split
  · rename_i htype
    refine ⟨slots, hprose.receive_delta slots _, ?_⟩
    have htools := h.other (htype ▸ hprose.ne_tools)
    exact htools ▸ h
  · refine ⟨update slots (stopOpenBlocksAndAdvance info).1.index none, ?_, fun k hk => ?_,
      fun htools => absurd htools hprose.ne_tools, fun _ => rfl⟩
    · exact ((silent_advance info).receive_append _ _).trans (hprose.receive_new slots _)
    · have hindex := hprose.advance (stopOpenBlocksAndAdvance info).1
      rw [update_of_ne (by simp only at hk hindex; omega)]
      exact h.fresh k (by simp only at hk hindex; omega)

theorem items_firstProseDelta (info : ConvertInfo) (slots : Slots) :
    (receiveAll slots (firstProseDelta type block delta info).2).2 = delta.items := by
  have hstops : Silent (if info.lastMessagesType = type then (info, []) else stopOpenBlocksAndAdvance info).2 := by
    split
    · exact silent_nil
    · exact silent_advance info
  unfold firstProseDelta
  rw [hstops.receive_append, hprose.receive_new]

end

/-! ## A whole delta -/

variable {delta : Delta}

theorem not_hasProse (hreasoning : delta.getReasoningContent = "") (hcontent : delta.getContentString = "") :
    delta.hasProse = false := by
  simp [Delta.hasProse, hreasoning, hcontent]

theorem receive_deltaEvents (h : Tracks toolId info slots tools)
    (htag : ∀ call ∈ delta.toolCalls, Tagged toolId call) : ∃ slots',
      receiveAll slots (deltaEvents delta info).2 = (slots', sent toolId tools delta .later) ∧
        Tracks toolId (deltaEvents delta info).1 slots' (openAfter tools delta .later) := by
  unfold deltaEvents sent openAfter proseSent
  dsimp only
  split
  · exact receive_toolDeltas h htag
  · split
    · rename_i hreasoning
      rw [if_pos (by simp [Delta.hasProse, hreasoning])]
      exact receive_proseDelta (.thinking _) h
    · split
      · rename_i hcontent
        rw [if_pos (by simp [Delta.hasProse, hcontent])]
        exact receive_proseDelta (.text _) h
      · rename_i hreasoning hcontent
        rw [if_neg (by simp [not_hasProse (not_not.mp hreasoning) (not_not.mp hcontent)])]
        exact ⟨slots, rfl, h⟩

/-- The second part of `firstDelta`. -/
def firstProse (delta : Delta) (info : ConvertInfo) : Converted :=
  if delta.getReasoningContent ≠ "" then
    firstProseDelta .thinking .thinking (.thinkingDelta delta.getReasoningContent) info
  else if delta.getContentString ≠ "" then firstProseDelta .text .text (.textDelta delta.getContentString) info
  else (info, [])

theorem firstDelta_nil (h : delta.toolCalls = []) (info : ConvertInfo) : firstDelta delta info = firstProse delta info := by
  unfold firstDelta
  rw [h]
  rfl

theorem firstDelta_cons (h : delta.toolCalls = call :: calls) (info : ConvertInfo) : firstDelta delta info =
      ((firstProse delta (firstToolCall call info).1).1,
        (firstToolCall call info).2 ++ (firstProse delta (firstToolCall call info).1).2) := by
  unfold firstDelta
  rw [h]
  rfl

theorem receive_firstToolCall (call : ToolCallResponse) (calls : List ToolCallResponse) (info : ConvertInfo)
    (slots : Slots) : receiveAll slots (firstToolCall call info).2 =
      (update slots 0 (some call.id), firstCallSent (call :: calls)) := by
  unfold firstToolCall firstCallSent
  dsimp only
  split
  · have hslot : update slots 0 (some call.id) 0 = some call.id := update_self _ _ _
    simp only [receiveAll, receive, hslot, singleton_append]
  · rfl

theorem items_firstProse (delta : Delta) (info : ConvertInfo) (slots : Slots) :
    (receiveAll slots (firstProse delta info).2).2 = proseSent delta := by
  unfold firstProse proseSent
  split
  · exact items_firstProseDelta (.thinking _) _ _
  · split
    · exact items_firstProseDelta (.text _) _ _
    · rfl

theorem items_firstDelta (delta : Delta) (info : ConvertInfo) (slots : Slots) (tools : List ℕ) :
    (receiveAll slots (firstDelta delta info).2).2 = sent toolId tools delta .first := by
  unfold sent
  cases hcalls : delta.toolCalls with
  | nil => rw [firstDelta_nil hcalls, items_firstProse, firstCallSent, nil_append]
  | cons call calls =>
    rw [firstDelta_cons hcalls, receiveAll_append_of (receive_firstToolCall call calls info slots), items_firstProse]

theorem receive_firstProse (h : Tracks toolId info slots tools)
    (hlast : info.lastMessagesType = .none ∨ info.lastMessagesType = .tools) (delta : Delta) : ∃ slots',
      receiveAll slots (firstProse delta info).2 = (slots', proseSent delta) ∧
        Tracks toolId (firstProse delta info).1 slots' (if delta.hasProse then [] else tools) := by
  have hother : ∀ {type : LastMessageType} {block : Block} {delta : BlockDelta}, IsProse type block delta →
      info.lastMessagesType ≠ type := by
    intro type block delta hprose
    cases hprose <;> rcases hlast with hlast | hlast <;> rw [hlast] <;> exact fun h => (by cases h)
  unfold firstProse proseSent
  split
  · rename_i hreasoning
    rw [firstProseDelta_eq _ _ (hother (.thinking "")), if_pos (by simp [Delta.hasProse, hreasoning])]
    exact receive_proseDelta (.thinking _) h
  · split
    · rename_i hcontent
      rw [firstProseDelta_eq _ _ (hother (.text "")), if_pos (by simp [Delta.hasProse, hcontent])]
      exact receive_proseDelta (.text _) h
    · rename_i hreasoning hcontent
      rw [if_neg (by simp [not_hasProse (not_not.mp hreasoning) (not_not.mp hcontent)])]
      exact ⟨slots, rfl, h⟩

theorem tracks_firstToolCall (htag : call.id = toolId call.tool) (hzero : call.tool = 0) (info : ConvertInfo) :
    Tracks toolId (firstToolCall call info).1 (update Slots.empty 0 (some call.id)) [call.tool] := by
  refine ⟨fun k hk => ?_, fun _ i => ?_, fun hne => absurd rfl hne⟩
  · rw [advance_tools rfl] at hk
    rw [update_of_ne (by omega)]
    rfl
  · rw [show (firstToolCall call info).1.toolCallBaseIndex + i = i from Nat.zero_add i]
    by_cases hi : i = 0
    · simp [hi, slot, hzero, htag]
    · simp [hi, slot, hzero, Slots.empty]

theorem receive_firstDelta (hlast : info.lastMessagesType = .none)
    (hfirst : ∀ call ∈ delta.toolCalls.head?, call.id = toolId call.tool ∧ call.tool = 0) : ∃ slots,
      receiveAll Slots.empty (firstDelta delta info).2 = (slots, sent toolId [] delta .first) ∧
        Tracks toolId (firstDelta delta info).1 slots (openAfter [] delta .first) := by
  unfold sent openAfter
  cases hcalls : delta.toolCalls with
  | nil =>
    have hempty : Tracks toolId info Slots.empty [] :=
      ⟨fun _ _ => rfl, fun htools => (by rw [hlast] at htools; cases htools), fun _ => rfl⟩
    rw [firstDelta_nil hcalls]
    exact receive_firstProse hempty (.inl hlast) delta
  | cons call calls =>
    obtain ⟨htag, hzero⟩ := hfirst call (by rw [hcalls]; rfl)
    obtain ⟨slots, hread, htracks⟩ := receive_firstProse (tracks_firstToolCall htag hzero info) (.inr rfl) delta
    rw [firstDelta_cons hcalls]
    refine ⟨slots, ?_, htracks⟩
    rw [receiveAll_append_of (receive_firstToolCall call calls info Slots.empty), hread]

end

end HotAI.Stream
