import HotAI.Messages.ToClaude

/-! # Tool calls and their results through the conversion to Claude messages -/
namespace HotAI.Messages
open HotAI.Lib List Converting ClaudeMessage

/-! ## Conversations -/

structure Plain (m : Message) : Prop where
  role : m.role ≠ .tool
  named : m.role ≠ .unnamed
  calls : m.parseToolCalls = []

structure IsResult (m : Message) : Prop where
  role : m.role = .tool
  calls : m.parseToolCalls = []

/-- An assistant message with tool calls and the tool messages that answer them, in any order. -/
structure Exchange (m : Message) (results : List Message) : Prop where
  role : m.role = .assistant
  calls : m.parseToolCalls ≠ []
  isResult : ∀ result ∈ results, IsResult result
  answered : (results.map Message.toolCallId).Perm (m.parseToolCalls.map ToolCall.id)

variable {m : Message} {results : List Message}

theorem Exchange.results_ne_nil (h : Exchange m results) : results ≠ [] := by
  rintro rfl
  exact h.calls (map_eq_nil_iff.mp (nil_perm.mp h.answered))

inductive Paired : List Message → Prop where
  | nil : Paired []
  | plain {ms : List Message} {m : Message} : Paired ms → Plain m → Paired (ms ++ [m])
  | exchange {ms : List Message} {m : Message} {results : List Message} :
      Paired ms → Exchange m results → Paired (ms ++ m :: results)

def callsOf (ms : List Message) : List ToolCall := ms.flatMap Message.parseToolCalls

def resultsOf (ms : List Message) : List (String × Content) :=
  (ms.filter (·.role = .tool)).map fun m => (m.toolCallId, m.content.filled)

structure Conversation where
  messages : List Message
  paired : Paired messages
  distinct : ((callsOf messages).map ToolCall.id).Nodup
  objects : ∀ call ∈ callsOf messages, ∃ fields, call.arguments = some (.obj fields)

/-! ## What comes out -/

def ClaudeMessage.blocks (m : ClaudeMessage) : List Block :=
  match m.content with
  | .string _ => []
  | .blocks blocks => blocks

def Block.toolUse? : Block → Option (String × String × Option Json)
  | .toolUse id name input => some (id, name, some input)
  | _ => none

def Block.toolResult? : Block → Option (String × Content)
  | .toolResult toolUseId content => some (toolUseId, content)
  | _ => none

def ClaudeMessage.toolUses (m : ClaudeMessage) : List (String × String × Option Json) := m.blocks.filterMap Block.toolUse?

def ClaudeMessage.toolResults (m : ClaudeMessage) : List (String × Content) := m.blocks.filterMap Block.toolResult?

def Answered : List ClaudeMessage → Prop
  | [] => True
  | m :: rest =>
      (m.toolUses ≠ [] → ∃ next ∈ rest.head?, next.role = .user ∧
        (next.toolResults.map Prod.fst).Perm (m.toolUses.map Prod.fst)) ∧ Answered rest

theorem answered_append {xs ys : List ClaudeMessage} (hxs : Answered xs) (hys : Answered ys) : Answered (xs ++ ys) := by
  induction xs with
  | nil => exact hys
  | cons x xs ih =>
    refine ⟨fun huses => ?_, ih hxs.2⟩
    obtain ⟨next, hnext, hanswer⟩ := hxs.1 huses
    cases xs with
    | nil => cases hnext
    | cons x' xs => exact ⟨next, hnext, hanswer⟩

/-! ## First loop -/

theorem filled_idem (c : Content) : c.filled.filled = c.filled := by
  cases c with
  | absent => rfl
  | string s => by_cases h : s = "" <;> simp [Content.filled, placeholder, h]
  | parts texts => rfl

theorem callsOf_append (as bs : List Message) : callsOf (as ++ bs) = callsOf as ++ callsOf bs := flatMap_append

theorem resultsOf_append (as bs : List Message) : resultsOf (as ++ bs) = resultsOf as ++ resultsOf bs := by
  rw [resultsOf, filter_append, map_append]
  rfl

theorem callsOf_singleton (m : Message) : callsOf [m] = m.parseToolCalls := append_nil _

theorem resultsOf_singleton (h : m.role ≠ .tool) : resultsOf [m] = [] := by
  simp [resultsOf, h]

variable {ms : List Message}

theorem Paired.last_plain (h : Paired ms) (hlast : ms.getLast? = some m)
    (hrole : m.role ≠ .tool) : ∃ prior, ms = prior ++ [m] ∧ Paired prior ∧ Plain m := by
  cases h with
  | nil => cases hlast
  | @plain prior m' hprior hplain =>
    rw [getLast?_concat] at hlast
    obtain rfl := Option.some.inj hlast
    exact ⟨prior, rfl, hprior, hplain⟩
  | @exchange prior m' results hprior hexchange =>
    have hne := hexchange.results_ne_nil
    have hmem : m ∈ results := by
      rw [getLast?_append, getLast?_cons_of_ne_nil hne, getLast?_eq_some_getLast hne] at hlast
      exact Option.some.inj hlast ▸ getLast_mem hne
    exact absurd (hexchange.isResult m hmem).role hrole

structure Formatted (ms : List Message) (f : Formatting) : Prop where
  paired : Paired f.formatMessages
  last : f.lastMessage.role = .tool ∨ f.formatMessages.getLast? = some f.lastMessage
  calls : callsOf f.formatMessages = callsOf ms
  results : resultsOf f.formatMessages = resultsOf ms
  filled : ∀ m ∈ f.formatMessages, m.content.filled = m.content

structure CopyOf (m fmt : Message) : Prop where
  role : fmt.role = m.role
  calls : fmt.toolCalls = m.copy.toolCalls
  toolCallId : fmt.toolCallId = m.copy.toolCallId
  filled : fmt.content.filled = fmt.content

theorem CopyOf.parseToolCalls {fmt : Message} (h : CopyOf m fmt) (hcalls : m.role = .assistant ∨ m.parseToolCalls = []) :
    fmt.parseToolCalls = m.parseToolCalls := by
  unfold Message.parseToolCalls at hcalls ⊢
  rw [h.calls, Message.copy]
  split
  · rfl
  · exact (hcalls.resolve_left ‹_›).symm

theorem step_message {f : Formatting} (hf : Formatted ms f) (m : Message) :
    ∃ prior fmt, f.step m = ⟨prior ++ [fmt], fmt⟩ ∧ CopyOf m fmt ∧ Paired prior ∧ callsOf prior = callsOf ms ∧
      resultsOf prior = resultsOf ms ∧ ∀ x ∈ prior, x.content.filled = x.content := by
  have hcopy : ∀ c : Content, CopyOf m { m.copy with content := c.filled } := fun c => ⟨rfl, rfl, rfl, filled_idem c⟩
  unfold Formatting.step
  split
  · rename_i last next hjoin hlast hnext
    obtain ⟨-, htool⟩ := of_decide_eq_true hjoin
    obtain ⟨prior, hprior, hpaired, hplain⟩ := hf.paired.last_plain (hf.last.resolve_left htool) htool
    refine ⟨prior, _, ?_, hcopy (.string (joinContents last next)), hpaired, ?_, ?_, fun x hx => hf.filled x ?_⟩
    · rw [hprior, dropLast_concat]
    · rw [← hf.calls, hprior, callsOf_append, callsOf_singleton, hplain.calls, append_nil]
    · rw [← hf.results, hprior, resultsOf_append, resultsOf_singleton htool, append_nil]
    · rw [hprior]
      exact mem_append_left _ hx
  · exact ⟨_, _, rfl, hcopy m.content, hf.paired, hf.calls, hf.results, hf.filled⟩

def Message.formatted (m : Message) : Message := { m.copy with content := m.content.filled }

theorem step_result (f : Formatting) (hrole : m.role = .tool) :
    f.step m = ⟨f.formatMessages ++ [m.formatted], m.formatted⟩ := by
  have hjoin : decide (f.lastMessage.role = m.role ∧ f.lastMessage.role ≠ .tool) = false := by
    refine decide_eq_false fun h => h.2 (h.1.trans hrole)
  unfold Formatting.step
  rw [hjoin]
  rfl

theorem run_results (f : Formatting) (h : ∀ m ∈ results, IsResult m) :
    (results.foldl Formatting.step f).formatMessages = f.formatMessages ++ results.map Message.formatted ∧
      (results.foldl Formatting.step f).lastMessage = ((results.map Message.formatted).getLast?).getD f.lastMessage := by
  induction results generalizing f with
  | nil => exact ⟨(append_nil _).symm, rfl⟩
  | cons m results ih =>
    obtain ⟨hm, hresults⟩ := forall_mem_cons.mp h
    obtain ⟨hmessages, hlast⟩ := ih (f.step m) hresults
    rw [foldl_cons, hmessages, hlast, step_result f hm.role, map_cons, append_assoc, getLast?_cons]
    exact ⟨rfl, rfl⟩

theorem formatted_isResult (h : IsResult m) : IsResult m.formatted := by
  refine ⟨h.role, ?_⟩
  simp [Message.formatted, Message.copy, Message.parseToolCalls, h.role]

theorem resultsOf_formatted (h : ∀ m ∈ results, IsResult m) :
    resultsOf (results.map Message.formatted) = resultsOf results := by
  induction results with
  | nil => rfl
  | cons m results ih =>
    obtain ⟨hm, hresults⟩ := forall_mem_cons.mp h
    have hone : resultsOf [m.formatted] = resultsOf [m] := by
      simp [resultsOf, Message.formatted, Message.copy, hm.role, filled_idem]
    rw [map_cons, ← singleton_append, resultsOf_append, hone, ih hresults, ← resultsOf_append,
      singleton_append]

theorem callsOf_results (h : ∀ m ∈ results, IsResult m) : callsOf results = [] :=
  flatMap_eq_nil_iff.mpr fun m hm => (h m hm).calls

theorem formatted_run (h : Paired ms) : Formatted ms (ms.foldl Formatting.step .init) := by
  induction h with
  | nil => exact ⟨.nil, .inl rfl, rfl, rfl, fun m hm => absurd hm not_mem_nil⟩
  | @plain ms m hms hm ih =>
    obtain ⟨prior, fmt, hstep, hcopy, hpaired, hcalls, hresults, hfilled⟩ := step_message ih m
    have hparsed := hcopy.parseToolCalls (.inr hm.calls)
    rw [foldl_append, foldl_cons, foldl_nil, hstep]
    refine ⟨.plain hpaired ⟨hcopy.role ▸ hm.role, hcopy.role ▸ hm.named, hparsed.trans hm.calls⟩, .inr getLast?_concat, ?_, ?_, ?_⟩
    · rw [callsOf_append, callsOf_append, hcalls, callsOf_singleton, callsOf_singleton, hparsed]
    · rw [resultsOf_append, resultsOf_append, hresults, resultsOf_singleton (hcopy.role ▸ hm.role),
        resultsOf_singleton hm.role]
    · intro x hx
      rcases mem_append.mp hx with hx | hx
      · exact hfilled x hx
      · rw [mem_singleton.mp hx, hcopy.filled]
  | @exchange ms m results hms hm ih =>
    have hrole : m.role ≠ .tool := by rw [hm.role]; exact fun h => (by cases h)
    obtain ⟨prior, fmt, hstep, hcopy, hpaired, hcalls, hresults, hfilled⟩ := step_message ih m
    have hparsed := hcopy.parseToolCalls (.inl hm.role)
    obtain ⟨hmessages, hlast⟩ := run_results ⟨prior ++ [fmt], fmt⟩ hm.isResult
    rw [foldl_append, foldl_cons, hstep]
    have hformatted : ∀ x ∈ results.map Message.formatted, IsResult x := by
      intro x hx
      obtain ⟨r, hr, rfl⟩ := mem_map.mp hx
      exact formatted_isResult (hm.isResult r hr)
    have hids : (results.map Message.formatted).map Message.toolCallId = results.map Message.toolCallId := by
      rw [map_map]
      refine map_congr_left fun r hr => ?_
      simp [Message.formatted, Message.copy, (hm.isResult r hr).role]
    have hexchange : Exchange fmt (results.map Message.formatted) :=
      ⟨hcopy.role.trans hm.role, by rw [hparsed]; exact hm.calls, hformatted, by rw [hids, hparsed]; exact hm.answered⟩
    have hmessages' : (results.foldl Formatting.step ⟨prior ++ [fmt], fmt⟩).formatMessages =
        prior ++ fmt :: results.map Message.formatted := by
      rw [hmessages, append_assoc, singleton_append]
    refine ⟨hmessages' ▸ .exchange hpaired hexchange, ?_, ?_, ?_, ?_⟩
    · rw [hmessages', hlast, getLast?_append, getLast?_cons]
      exact .inr rfl
    · rw [hmessages', ← singleton_append, ← singleton_append (x := m)]
      simp only [callsOf_append, hcalls, callsOf_singleton, hparsed, callsOf_results hformatted, callsOf_results hm.isResult]
    · rw [hmessages', ← singleton_append, ← singleton_append (x := m)]
      simp only [resultsOf_append, hresults, resultsOf_singleton hrole, resultsOf_singleton (hcopy.role ▸ hrole),
        resultsOf_formatted hm.isResult]
    · intro x hx
      rw [hmessages'] at hx
      rcases mem_append.mp hx with hx | hx
      · exact hfilled x hx
      · rcases mem_cons.mp hx with rfl | hx
        · exact hcopy.filled
        · obtain ⟨-, -, rfl⟩ := mem_map.mp hx
          exact filled_idem _

/-! ## Second loop -/

def usesOf (ms : List Message) : List (String × String × Option Json) :=
  (callsOf ms).map fun call => (call.id, call.name, some call.input)

structure Converted (ms : List Message) (c : Converting) : Prop where
  roles : ∀ m ∈ c.claudeMessages, m.role = .user ∨ m.role = .assistant
  begun : c.isFirstMessage = true ↔ c.claudeMessages = []
  first : ∀ m ∈ c.claudeMessages.head?, m.role = .user
  uses : c.claudeMessages.flatMap ClaudeMessage.toolUses = usesOf ms
  results : c.claudeMessages.flatMap ClaudeMessage.toolResults = resultsOf ms
  answered : Answered c.claudeMessages

theorem claudeContent_toolUses (m : Message) : (ClaudeMessage.mk m.role m.claudeContent).toolUses =
    m.parseToolCalls.map fun call => (call.id, call.name, some call.input) := by
  have hcalls : (m.parseToolCalls.map ToolCall.toolUse).filterMap Block.toolUse? =
      m.parseToolCalls.map fun call => (call.id, call.name, some call.input) := by
    rw [filterMap_map]
    exact congrFun filterMap_eq_map _
  have htexts : ∀ texts : List String, (texts.map Block.text).filterMap Block.toolUse? = [] := by
    intro texts
    rw [filterMap_map]
    exact filterMap_eq_nil_iff.mpr fun _ _ => rfl
  unfold toolUses blocks Message.claudeContent
  split
  · rename_i s hs
    split at hs
    · rename_i hnone
      rw [Message.parseToolCalls, hnone]
      rfl
    · cases hs
  · rename_i blocks hblocks
    split at hblocks
    · cases hblocks
    · rw [← ClaudeContent.blocks.inj hblocks, filterMap_append, htexts, hcalls, nil_append]

theorem claudeContent_toolResults (m : Message) : (ClaudeMessage.mk m.role m.claudeContent).toolResults = [] := by
  unfold toolResults blocks Message.claudeContent
  refine filterMap_eq_nil_iff.mpr fun block hblock => ?_
  split at hblock
  · exact absurd hblock not_mem_nil
  · rename_i blocks hblocks
    split at hblocks
    · cases hblocks
    · rw [← ClaudeContent.blocks.inj hblocks] at hblock
      rcases mem_append.mp hblock with hmem | hmem
      · obtain ⟨-, -, rfl⟩ := mem_map.mp hmem
        rfl
      · obtain ⟨-, -, rfl⟩ := mem_map.mp hmem
        rfl

theorem Converted.append {ms : List Message} {c c' : Converting} (h : Converted ms c) {added : List ClaudeMessage}
    {ms' : List Message} (hmessages : c'.claudeMessages = c.claudeMessages ++ added) (hfirst : c'.isFirstMessage = false)
    (hadded : added ≠ [])
    (hroles : ∀ m ∈ added, m.role = .user ∨ m.role = .assistant)
    (hhead : c.claudeMessages = [] → ∀ m ∈ added.head?, m.role = .user)
    (huses : added.flatMap ClaudeMessage.toolUses = usesOf ms')
    (hresults : added.flatMap ClaudeMessage.toolResults = resultsOf ms') (hanswered : Answered added) :
    Converted (ms ++ ms') c' := by
  refine ⟨fun m hm => ?_, ?_, fun m hm => ?_, ?_, ?_, ?_⟩
  · rw [hmessages] at hm
    exact (mem_append.mp hm).elim (h.roles m) (hroles m)
  · rw [hfirst, hmessages]
    simp [hadded]
  · rw [hmessages] at hm
    by_cases hnil : c.claudeMessages = []
    · rw [hnil] at hm
      exact hhead hnil m hm
    · rw [head?_append_of_ne_nil _ hnil] at hm
      exact h.first m hm
  · rw [hmessages, flatMap_append, h.uses, huses, usesOf, usesOf, usesOf, callsOf_append, map_append]
  · rw [hmessages, flatMap_append, h.results, hresults, resultsOf_append]
  · rw [hmessages]
    exact answered_append h.answered hanswered

variable {c : Converting}

theorem begin_spec (h : Converted ms c) (m : Message) : ∃ lead,
    (c.begin m).claudeMessages = c.claudeMessages ++ lead ∧ (c.begin m).isFirstMessage = false ∧
      (lead = [] ∧ (c.claudeMessages = [] → m.role = .user) ∨ lead = [⟨.user, .blocks [.text placeholder]⟩]) := by
  unfold begin
  cases hfirst : c.isFirstMessage with
  | false =>
    refine ⟨[], (append_nil _).symm, hfirst, .inl ⟨rfl, fun hnil => ?_⟩⟩
    rw [h.begun.mpr hnil] at hfirst
    cases hfirst
  | true =>
    by_cases hrole : m.role = .user
    · refine ⟨[], ?_, rfl, .inl ⟨rfl, fun _ => hrole⟩⟩
      simp [hrole]
    · refine ⟨_, ?_, rfl, .inr rfl⟩
      simp [hrole]

theorem converted_message {ms : List Message} {c : Converting} (h : Converted ms c) {m : Message}
    (hrole : m.role = .user ∨ m.role = .assistant) {rest : List ClaudeMessage} {ms' : List Message} {c' : Converting}
    (hmessages : c'.claudeMessages = (c.begin m).claudeMessages ++ ⟨m.role, m.claudeContent⟩ :: rest)
    (hfirst : c'.isFirstMessage = (c.begin m).isFirstMessage)
    (hroles : ∀ m ∈ rest, m.role = .user ∨ m.role = .assistant)
    (huses : rest.flatMap ClaudeMessage.toolUses = usesOf ms')
    (hresults : rest.flatMap ClaudeMessage.toolResults = resultsOf ms')
    (hanswered : Answered (⟨m.role, m.claudeContent⟩ :: rest)) : Converted (ms ++ m :: ms') c' := by
  obtain ⟨lead, hlead, hbegun, hcases⟩ := begin_spec h m
  have htool : m.role ≠ .tool := by rcases hrole with h | h <;> rw [h] <;> exact fun h => (by cases h)
  have hnone : lead.flatMap toolUses = [] ∧ lead.flatMap toolResults = [] ∧
      Answered lead ∧ ∀ m ∈ lead, m.role = .user := by
    rcases hcases with ⟨rfl, -⟩ | rfl
    · exact ⟨rfl, rfl, trivial, fun m hm => absurd hm not_mem_nil⟩
    · exact ⟨rfl, rfl, ⟨fun huses => absurd rfl huses, trivial⟩, fun m hm => (mem_singleton.mp hm) ▸ rfl⟩
  refine @Converted.append ms c c' h (lead ++ ⟨m.role, m.claudeContent⟩ :: rest) (m :: ms') ?_ ?_ ?_ ?_ ?_ ?_ ?_ ?_
  · rw [hmessages, hlead, append_assoc]
  · rw [hfirst, hbegun]
  · simp
  · intro x hx
    rcases mem_append.mp hx with hx | hx
    · exact .inl (hnone.2.2.2 x hx)
    · rcases mem_cons.mp hx with rfl | hx
      · exact hrole
      · exact hroles x hx
  · intro hnil x hx
    rcases hcases with ⟨rfl, huser⟩ | rfl
    · exact Option.some.inj hx ▸ huser hnil
    · exact Option.some.inj hx ▸ rfl
  · rw [flatMap_append, hnone.1, flatMap_cons, huses, claudeContent_toolUses, nil_append, usesOf, usesOf,
      ← singleton_append (x := m), callsOf_append, callsOf_singleton, map_append]
  · rw [flatMap_append, hnone.2.1, flatMap_cons, hresults, claudeContent_toolResults, ← singleton_append (x := m), resultsOf_append, resultsOf_singleton htool, nil_append]
  · exact answered_append hnone.2.2.1 hanswered

def Message.toolResult (m : Message) : Block := .toolResult m.toolCallId m.content

theorem step_tool (hfirst : c.isFirstMessage = false) (hrole : m.role = .tool) : c.step m = c.addTool m := by
  have hbegin : c.begin m = c := if_neg (by simp [hfirst])
  rw [step, hrole, hbegin]

theorem run_addTool {c : Converting} {prior : List ClaudeMessage} {blocks : List Block} {results : List Message}
    (hmessages : c.claudeMessages = prior ++ [⟨.user, .blocks blocks⟩]) (hfirst : c.isFirstMessage = false)
    (h : ∀ m ∈ results, IsResult m) :
    (results.foldl Converting.step c).claudeMessages =
        prior ++ [⟨.user, .blocks (blocks ++ results.map Message.toolResult)⟩] ∧
      (results.foldl Converting.step c).isFirstMessage = false := by
  induction results generalizing c blocks with
  | nil =>
    rw [map_nil, append_nil]
    exact ⟨hmessages, hfirst⟩
  | cons m results ih =>
    obtain ⟨hm, hresults⟩ := forall_mem_cons.mp h
    have hstep : c.step m = { c with claudeMessages := prior ++ [⟨.user, .blocks (blocks ++ [m.toolResult])⟩] } := by
      rw [step_tool hfirst hm.role, addTool]
      simp [hmessages, withToolResult, Message.toolResult]
    rw [foldl_cons, hstep]
    have hrest := @ih { c with claudeMessages := prior ++ [⟨.user, .blocks (blocks ++ [m.toolResult])⟩] } _ rfl hfirst hresults
    rwa [append_assoc, singleton_append] at hrest

theorem run_tools {c : Converting} {prior : List ClaudeMessage} {content : ClaudeContent} {results : List Message}
    (hmessages : c.claudeMessages = prior ++ [⟨.assistant, content⟩]) (hfirst : c.isFirstMessage = false)
    (h : ∀ m ∈ results, IsResult m) (hne : results ≠ []) :
    (results.foldl Converting.step c).claudeMessages =
        prior ++ [⟨.assistant, content⟩, ⟨.user, .blocks (results.map Message.toolResult)⟩] ∧
      (results.foldl Converting.step c).isFirstMessage = false := by
  obtain ⟨m, results, rfl⟩ := exists_cons_of_ne_nil hne
  obtain ⟨hm, hresults⟩ := forall_mem_cons.mp h
  have hstep : c.step m = { c with claudeMessages := prior ++ [⟨.assistant, content⟩] ++ [⟨.user, .blocks [m.toolResult]⟩] } := by
    rw [step_tool hfirst hm.role, addTool]
    simp [hmessages, Message.toolResult]
  rw [foldl_cons, hstep]
  have hrest := @run_addTool
    { c with claudeMessages := prior ++ [⟨.assistant, content⟩] ++ [⟨.user, .blocks [m.toolResult]⟩] } _ _ _ rfl hfirst hresults
  exact ⟨hrest.1.trans (append_assoc _ _ _), hrest.2⟩

theorem toolResults_of_results (role : Role) (results : List Message) :
    (ClaudeMessage.mk role (.blocks (results.map Message.toolResult))).toolResults =
      results.map fun m => (m.toolCallId, m.content) := by
  change (results.map Message.toolResult).filterMap Block.toolResult? = _
  rw [filterMap_map]
  exact congrFun filterMap_eq_map _

theorem toolUses_of_results (role : Role) (results : List Message) :
    (ClaudeMessage.mk role (.blocks (results.map Message.toolResult))).toolUses = [] := by
  change (results.map Message.toolResult).filterMap Block.toolUse? = _
  rw [filterMap_map]
  exact filterMap_eq_nil_iff.mpr fun _ _ => rfl

theorem resultsOf_results (h : ∀ m ∈ results, IsResult m) (hfilled : ∀ m ∈ results, m.content.filled = m.content) :
    resultsOf results = results.map fun m => (m.toolCallId, m.content) := by
  have hall : results.filter (·.role = .tool) = results := filter_eq_self.mpr fun m hm => by simp [(h m hm).role]
  rw [resultsOf, hall]
  exact map_congr_left fun m hm => by rw [hfilled m hm]

theorem converted_run (h : Paired ms) (hfilled : ∀ m ∈ ms, m.content.filled = m.content) :
    Converted ms (ms.foldl Converting.step .init) := by
  induction h with
  | nil =>
    exact ⟨fun m hm => absurd hm not_mem_nil, ⟨fun _ => rfl, fun _ => rfl⟩, fun m hm => (by cases hm), rfl, rfl, trivial⟩
  | @plain ms m hms hm ih =>
    have ih := ih fun x hx => hfilled x (mem_append_left _ hx)
    rw [foldl_append, foldl_cons, foldl_nil]
    have hrest : ∀ hrole : m.role = .user ∨ m.role = .assistant,
        Converted (ms ++ [m]) (step (ms.foldl step .init) m) := by
      intro hrole
      have huses : (mk m.role m.claudeContent).toolUses = [] := by
        rw [claudeContent_toolUses, hm.calls, map_nil]
      refine converted_message ih hrole ?_ ?_ (fun x hx => absurd hx not_mem_nil) rfl rfl
        ⟨fun hne => absurd huses hne, trivial⟩
      all_goals rcases hrole with hrole | hrole <;> rw [step, hrole]
    cases hrole : m.role with
    | tool => exact absurd hrole hm.role
    | unnamed => exact absurd hrole hm.named
    | user => exact hrest (.inl hrole)
    | assistant => exact hrest (.inr hrole)
    | system =>
      have hstep : ∀ c : Converting, (c.step m).claudeMessages = c.claudeMessages ∧
          (c.step m).isFirstMessage = c.isFirstMessage := by
        intro c
        rw [step, hrole]
        exact ⟨rfl, rfl⟩
      obtain ⟨hmessages, hfirst⟩ := hstep (ms.foldl step .init)
      refine ⟨hmessages ▸ ih.roles, ?_, hmessages ▸ ih.first, ?_, ?_, hmessages ▸ ih.answered⟩
      · rw [hfirst, hmessages]
        exact ih.begun
      · rw [hmessages, ih.uses, usesOf, usesOf, callsOf_append, callsOf_singleton, hm.calls, append_nil]
      · rw [hmessages, ih.results, resultsOf_append, resultsOf_singleton hm.role, append_nil]
  | @exchange ms m results hms hm ih =>
    have ih := ih fun x hx => hfilled x (mem_append_left _ hx)
    have hne : results ≠ [] := hm.results_ne_nil
    have hresults : resultsOf results = results.map fun m => (m.toolCallId, m.content) :=
      resultsOf_results hm.isResult fun x hx => hfilled x (mem_append_right _ (mem_cons_of_mem _ hx))
    rw [foldl_append, foldl_cons]
    obtain ⟨-, -, hbegun, -⟩ := begin_spec ih m
    have hstep : step (ms.foldl step .init) m =
        { (ms.foldl step .init).begin m with
          claudeMessages := ((ms.foldl step .init).begin m).claudeMessages ++ [⟨.assistant, m.claudeContent⟩] } := by
      rw [step, hm.role]
    obtain ⟨hmessages, hfirst⟩ := @run_tools (step (ms.foldl step .init) m)
      ((ms.foldl step .init).begin m).claudeMessages m.claudeContent results (by rw [hstep])
      (by rw [hstep]; exact hbegun) hm.isResult hne
    refine @converted_message ms _ ih m (.inr hm.role) [⟨.user, .blocks (results.map Message.toolResult)⟩] results _
      ?_ ?_ ?_ ?_ ?_ ?_
    · rw [hmessages, hm.role]
    · rw [hfirst, hbegun]
    · exact fun x hx => .inl (mem_singleton.mp hx ▸ rfl)
    · rw [flatMap_singleton, toolUses_of_results, usesOf, callsOf_results hm.isResult, map_nil]
    · rw [flatMap_singleton, toolResults_of_results, hresults]
    · refine ⟨fun _ => ⟨_, rfl, rfl, ?_⟩, ⟨fun huses => absurd (toolUses_of_results _ _) huses, trivial⟩⟩
      rw [toolResults_of_results, claudeContent_toolUses, map_map, map_map]
      exact hm.answered

/-! ## The request -/

/-- User and assistant messages only, a user message first, each call and result once and in order, an assistant message's
results all in the next one. -/
structure Survives (c : Conversation) (out : List ClaudeMessage) : Prop where
  roles : ∀ m ∈ out, m.role = .user ∨ m.role = .assistant
  first : ∀ m ∈ out.head?, m.role = .user
  uses : out.flatMap ClaudeMessage.toolUses = (callsOf c.messages).map fun call => (call.id, call.name, call.arguments)
  results : out.flatMap ClaudeMessage.toolResults = resultsOf c.messages
  answered : Answered out

theorem input_eq_arguments_iff {call : ToolCall} {fields : Fields} (h : call.arguments = some (.obj fields)) :
    some call.input = call.arguments ↔ Json.Exact (.obj fields) := by
  rw [← Json.decoded_eq_self_iff, ToolCall.input, h, Option.some.injEq]

/-- The tool use of a conversation survives exactly if Go writes the numbers in the arguments as they were. -/
theorem tool_use_survives_iff (c : Conversation) : Survives c (requestOpenAI2ClaudeMessage c.messages) ↔
    ∀ call ∈ callsOf c.messages, ∀ arguments ∈ call.arguments, arguments.Exact := by
  have hformatted := formatted_run c.paired
  have hconverted := converted_run hformatted.paired hformatted.filled
  have huses : (requestOpenAI2ClaudeMessage c.messages).flatMap toolUses = usesOf c.messages := by
    rw [requestOpenAI2ClaudeMessage, hconverted.uses, usesOf, usesOf, hformatted.calls]
  have hexact : usesOf c.messages = (callsOf c.messages).map (fun call => (call.id, call.name, call.arguments)) ↔
      ∀ call ∈ callsOf c.messages, ∀ arguments ∈ call.arguments, arguments.Exact := by
    rw [usesOf, map_inj_left]
    refine forall₂_congr fun call hcall => ?_
    obtain ⟨fields, hfields⟩ := c.objects call hcall
    rw [Prod.mk.injEq, Prod.mk.injEq, input_eq_arguments_iff hfields, hfields]
    simp
  constructor
  · intro h
    exact hexact.mp (huses.symm.trans h.uses)
  · intro h
    exact ⟨hconverted.roles, hconverted.first, huses.trans (hexact.mpr h), hconverted.results.trans hformatted.results,
      hconverted.answered⟩

/-- A call with the argument 9007199254740993, which is no `float64`. -/
def largeNumber : Conversation where
  messages := [⟨.user, .string "hi", none, ""⟩,
    ⟨.assistant, .absent, some [⟨"c", "get", some (.obj [("id", .num 9007199254740993)])⟩], ""⟩,
    ⟨.tool, .string "ok", none, "c"⟩]
  paired := @Paired.exchange [⟨.user, .string "hi", none, ""⟩] _ _ (@Paired.plain [] _ .nil ⟨by decide, by decide, rfl⟩)
    ⟨rfl, by simp [Message.parseToolCalls], by simpa using ⟨rfl, rfl⟩, .refl _⟩
  distinct := by decide
  objects := by simp [callsOf, Message.parseToolCalls]

theorem large_number_changed : ¬ Survives largeNumber (requestOpenAI2ClaudeMessage largeNumber.messages) ∧
    (requestOpenAI2ClaudeMessage largeNumber.messages).flatMap ClaudeMessage.toolUses =
      [("c", "get", some (.obj [("id", .num 9007199254740992)]))] := by
  have hfloat : float64 9007199254740993 = some 9007199254740992 := by decide +kernel
  have hshortest : shortest 9007199254740992 = 9007199254740992 := by decide +kernel
  have huses : (requestOpenAI2ClaudeMessage largeNumber.messages).flatMap toolUses =
      [("c", "get", some (.obj [("id", .num 9007199254740992)]))] := by
    change [("c", "get", some (Json.obj [("id", Json.decoded (.num 9007199254740993))]))] = _
    rw [Json.decoded_num hfloat, hshortest]
  refine ⟨fun h => ?_, huses⟩
  have hsame := huses.symm.trans h.uses
  simp only [largeNumber, callsOf, Message.parseToolCalls, flatMap_cons, flatMap_nil, Option.getD_none,
    Option.getD_some, nil_append, append_nil, map_cons, map_nil, cons.injEq, Prod.mk.injEq,
    Option.some.injEq, Json.obj.injEq, Json.num.injEq, true_and, and_true] at hsame
  norm_num at hsame

end HotAI.Messages
