import HotAI.Stream.Received

/-! # What of an upstream stream reaches a Claude client

Each delta of the stream is handled in one of three ways, and what the client reads is what the deltas send that way. -/
namespace HotAI.Stream
open HotAI.Lib List Option

/-- One choice in each chunk: deltas, a finish chunk, perhaps a usage chunk. Tools are introduced in order; each piece
carries its tool's id or none. -/
structure ChatStream where
  id : String
  model : String
  deltas : List (Delta × Option Usage)
  finish : Delta
  finishReason : String
  finishReason_ne : finishReason ≠ ""
  finishUsage : Option Usage
  usageOnly : Option Usage
  toolId : ℕ → String
  toolId_ne : ∀ i, toolId i ≠ ""
  toolId_injective : Function.Injective toolId
  indexed : ((deltas.map Prod.fst ++ [finish]).foldlM introduceAll 0).isSome
  tagged : ∀ delta ∈ deltas.map Prod.fst ++ [finish], ∀ call ∈ delta.toolCalls,
    call.id = toolId call.tool ∨ call.id = "" ∧ call.function.name = ""

namespace ChatStream
variable (s : ChatStream)

def deltaChunk (d : Delta × Option Usage) : Chunk := ⟨s.id, 0, s.model, none, [⟨0, d.1, none⟩], d.2⟩

def finishChunk : Chunk := ⟨s.id, 0, s.model, none, [⟨0, s.finish, some s.finishReason⟩], s.finishUsage⟩

def usageChunk (usage : Usage) : Chunk := ⟨s.id, 0, s.model, none, [], some usage⟩

def chunks : List Chunk := s.deltas.map s.deltaChunk ++ s.finishChunk :: s.usageOnly.toList.map s.usageChunk

def upstream : List Delta := s.deltas.map Prod.fst ++ [s.finish]

/-- The finish chunk counts as the first if one chunk was handed on before: itself, followed by the usage, or the only delta.
-/
def finishMode : Mode :=
  if s.deltas.length + s.usageOnly.toList.length = 1 then .first
  else if s.finishUsage.isNone then .skipped
  else .later

def handledDeltas : List (Mode × Delta) :=
  match s.deltas with
  | [] => []
  | d :: ds => (.first, d.1) :: ds.map fun d => (.later, d.1)

def handled : List (Mode × Delta) := s.handledDeltas ++ [(s.finishMode, s.finish)]

theorem handled_upstream : s.handled.map Prod.snd = s.upstream := by
  unfold handled handledDeltas upstream
  cases s.deltas <;> simp [Function.comp_def]

end ChatStream

def sentAll (toolId : ℕ → String) : List ℕ → List (Mode × Delta) → List Item
  | _, [] => []
  | tools, (mode, delta) :: rest => sent toolId tools delta mode ++ sentAll toolId (openAfter tools delta mode) rest

/-! ## One chunk -/

def modeOf (count : ℕ) (choice : Choice) (usage : Option Usage) : Mode :=
  if count = 1 then .first else if choice.finished && usage.isNone then .skipped else .later

theorem Tracks.withUsage {toolId : ℕ → String} {info : ConvertInfo} {slots : Slots} {tools : List ℕ}
    (h : Tracks toolId info slots tools) (usage : Option Usage) : Tracks toolId (withUsage info usage) slots tools := by
  cases usage <;> exact h.congr rfl rfl rfl rfl

section
variable {toolId : ℕ → String} (e : ℤ) {count : ℕ} {chunk : Chunk} {choice : Choice} {info : ConvertInfo} {slots : Slots}
  {tools : List ℕ}

theorem items_stream (hchoices : chunk.choices = [choice]) (hdone : info.done = false)
    (h : Tracks toolId info slots tools) (htag : ∀ call ∈ choice.delta.toolCalls, Tagged toolId call) :
    (receiveAll slots (streamResponseOpenAI2Claude e count chunk info).2).2 =
      sent toolId tools choice.delta (modeOf count choice chunk.usage) := by
  have hstart : ∀ events, receiveAll slots (.messageStart chunk.id chunk.model e :: events) = receiveAll slots events :=
    fun events => rfl
  unfold streamResponseOpenAI2Claude modeOf
  rw [if_neg (by simp [hdone]), hchoices]
  dsimp only
  by_cases hcount : count = 1
  · rw [if_pos hcount]
    split
    · rw [cons_append, hstart, (silent_closeMessage _ _ _).items_append]
      exact items_firstDelta _ _ _ _
    · exact items_firstDelta _ _ _ _
  · rw [if_neg hcount, if_neg hcount]
    cases hfinished : choice.finished with
    | false =>
      obtain ⟨slots', hread, -⟩ := receive_deltaEvents h htag
      simp only [Bool.false_eq_true, if_false, Bool.false_and, hread]
    | true =>
      cases husage : chunk.usage with
      | none => rfl
      | some usage =>
        have h' : Tracks toolId { info with finishReason := choice.finishReason.getD "" } slots tools :=
          h.congr rfl rfl rfl rfl
        obtain ⟨slots', hread, -⟩ := receive_deltaEvents h' htag
        simp only [if_true, isNone_some, Bool.false_eq_true, if_false, Bool.true_and]
        rw [(silent_closeMessage _ _ _).items_append, hread]

theorem silent_usageChunk (hchoices : chunk.choices = []) : Silent (streamResponseOpenAI2Claude e count chunk info).2 := by
  unfold streamResponseOpenAI2Claude
  rw [hchoices]
  dsimp only
  split
  · exact silent_nil
  · split
    · exact fun slots => rfl
    · split
      · exact silent_nil
      · exact silent_closeMessage _ _ _

end

/-! ## The loop -/

/-- The message is open and the client has read `items`. -/
structure Relays (toolId : ℕ → String) (r : ClaudeRelay) (tools : List ℕ) (items : List Item) : Prop where
  done : r.info.done = false
  received : ∃ slots, receiveAll Slots.empty r.out = (slots, items) ∧ Tracks toolId r.info slots tools

def openAll (tools : List ℕ) (hs : List (Mode × Delta)) : List ℕ := hs.foldl (fun tools h => openAfter tools h.2 h.1) tools

theorem sentAll_append (toolId : ℕ → String) (tools : List ℕ) (as bs : List (Mode × Delta)) :
    sentAll toolId tools (as ++ bs) = sentAll toolId tools as ++ sentAll toolId (openAll tools as) bs := by
  induction as generalizing tools with
  | nil => rfl
  | cons a as ih => rw [cons_append, sentAll, ih, sentAll, append_assoc]; rfl

theorem introduced_index {n n' : ℕ} {deltas : List Delta} (h : deltas.foldlM introduceAll n = some n') :
    ∀ delta ∈ deltas, ∀ call ∈ delta.toolCalls, call.index = some call.tool := by
  have hcalls : ∀ (calls : List ToolCallResponse) (n n' : ℕ), calls.foldlM introduce n = some n' →
      ∀ call ∈ calls, call.index = some call.tool := by
    intro calls
    induction calls with
    | nil => exact fun _ _ _ call hmem => absurd hmem not_mem_nil
    | cons call calls ih =>
      intro n n' h c hmem
      obtain ⟨n₁, hcall, hrest⟩ := introduce_cons h
      rcases mem_cons.mp hmem with rfl | hmem
      · obtain ⟨i, hi, -⟩ := introduce_cases hcall
        rw [ToolCallResponse.tool, hi, getD_some]
      · exact ih n₁ n' hrest c hmem
  induction deltas generalizing n with
  | nil => exact fun delta hmem => absurd hmem not_mem_nil
  | cons d ds ih =>
    intro delta hmem
    obtain ⟨n₁, hd, hds⟩ := introduceAll_cons h
    rcases mem_cons.mp hmem with rfl | hmem
    · exact hcalls _ _ _ hd
    · exact ih hds delta hmem

namespace ChatStream
variable (s : ChatStream) (e : ℤ)

theorem tagged_of_mem {delta : Delta} (h : delta ∈ s.upstream) : ∀ call ∈ delta.toolCalls, Tagged s.toolId call := by
  intro call hcall
  obtain ⟨n, hall⟩ := isSome_iff_exists.mp s.indexed
  refine ⟨introduced_index hall delta h call hcall, fun hname => ?_⟩
  exact (s.tagged delta h call hcall).resolve_right fun hempty => hname hempty.2

variable {ds : List (Delta × Option Usage)} {d : Delta × Option Usage} {items : List Item} {r : ClaudeRelay}

theorem first_call (hdeltas : s.deltas = d :: ds) :
    ∀ call ∈ d.1.toolCalls.head?, call.id = s.toolId call.tool ∧ call.tool = 0 := by
  intro call hcall
  obtain ⟨calls, hcalls⟩ : ∃ calls, d.1.toolCalls = call :: calls := by
    cases h : d.1.toolCalls with
    | nil => rw [h] at hcall; cases hcall
    | cons c calls => rw [h] at hcall; exact ⟨calls, by rw [some.inj hcall]⟩
  have hmem : d.1 ∈ s.upstream := by simp [upstream, hdeltas]
  obtain ⟨n, hall⟩ := isSome_iff_exists.mp s.indexed
  rw [hdeltas, map_cons] at hall
  obtain ⟨n₁, hd, -⟩ := introduceAll_cons hall
  rw [introduceAll, hcalls] at hd
  obtain ⟨n₂, hintro, -⟩ := introduce_cons hd
  obtain ⟨i, hi, ⟨hlt, -⟩ | ⟨hzero, hname, -⟩⟩ := introduce_cases hintro
  · omega
  · refine ⟨(s.tagged_of_mem hmem call (by simp [hcalls])).id hname, ?_⟩
    rw [ToolCallResponse.tool, hi, getD_some, hzero]

theorem relays_later {tools : List ℕ} (h : Relays s.toolId r tools items)
    (hcount : 1 ≤ r.sendResponseCount) (htag : ∀ call ∈ d.1.toolCalls, Tagged s.toolId call) :
    Relays s.toolId (handleClaudeFormat e r (s.deltaChunk d)) (openAfter tools d.1 .later)
      (items ++ sent s.toolId tools d.1 .later) := by
  obtain ⟨hdone, slots, hread, htracks⟩ := h
  have hdone' : (withUsage r.info d.2).done = false := (withUsage_done _ _).trans hdone
  obtain ⟨slots', hread', htracks'⟩ := receive_deltaEvents (htracks.withUsage d.2) htag
  rw [handleClaudeFormat_eq, show (s.deltaChunk d).usage = d.2 from rfl,
    @stream_unfinished e (r.sendResponseCount + 1) (by omega) _ hdone' (s.deltaChunk d) _ rfl rfl]
  refine ⟨(deltaEvents_done _ _).trans hdone', slots', ?_, htracks'⟩
  rw [receiveAll_append_of hread, hread']

theorem relays_rest {tools : List ℕ} (h : Relays s.toolId r tools items) (hcount : 1 ≤ r.sendResponseCount)
    (htag : ∀ d ∈ ds, ∀ call ∈ d.1.toolCalls, Tagged s.toolId call) :
    Relays s.toolId ((ds.map s.deltaChunk).foldl (handleClaudeFormat e) r)
      (openAll tools (ds.map fun d => (.later, d.1))) (items ++ sentAll s.toolId tools (ds.map fun d => (.later, d.1))) := by
  induction ds generalizing r tools items with
  | nil => exact (append_nil items).symm ▸ h
  | cons d ds ih =>
    have hd := s.relays_later e h hcount (htag d mem_cons_self)
    have hnext : 1 ≤ (handleClaudeFormat e r (s.deltaChunk d)).sendResponseCount := by
      exact Nat.le_add_left _ _
    have hds := ih hd hnext fun d' hd' => htag d' (mem_cons_of_mem _ hd')
    rwa [append_assoc] at hds

theorem relays_first (hdeltas : s.deltas = d :: ds) :
    Relays s.toolId (handleClaudeFormat e ⟨.init, 0, []⟩ (s.deltaChunk d)) (openAfter [] d.1 .first)
      (sent s.toolId [] d.1 .first) := by
  have hdone : (withUsage ConvertInfo.init d.2).done = false := withUsage_done _ _
  have hlast : (withUsage ConvertInfo.init d.2).lastMessagesType = .none := by cases d.2 <;> rfl
  obtain ⟨slots, hread, htracks⟩ := receive_firstDelta hlast (s.first_call hdeltas)
  have hstream : streamResponseOpenAI2Claude e 1 (s.deltaChunk d) (withUsage ConvertInfo.init d.2) =
      ((firstDelta d.1 (withUsage ConvertInfo.init d.2)).1,
        .messageStart s.id s.model e :: (firstDelta d.1 (withUsage ConvertInfo.init d.2)).2) := by
    unfold streamResponseOpenAI2Claude
    rw [if_neg (by simp [hdone])]
    rfl
  change Relays _ ⟨(streamResponseOpenAI2Claude e 1 (s.deltaChunk d) (withUsage ConvertInfo.init d.2)).1, _,
    [] ++ (streamResponseOpenAI2Claude e 1 (s.deltaChunk d) (withUsage ConvertInfo.init d.2)).2⟩ _ _
  rw [hstream]
  exact ⟨(firstDelta_done _ _).trans hdone, slots, hread, htracks⟩

theorem relays_deltas : Relays s.toolId ((s.deltas.map s.deltaChunk).foldl (handleClaudeFormat e) ⟨.init, 0, []⟩)
    (openAll [] s.handledDeltas) (sentAll s.toolId [] s.handledDeltas) := by
  unfold handledDeltas
  cases hdeltas : s.deltas with
  | nil =>
    exact ⟨rfl, Slots.empty, rfl, fun _ _ => rfl, fun htools => (by cases htools), fun _ => rfl⟩
  | cons d ds =>
    refine s.relays_rest e (s.relays_first e hdeltas) ?_ fun d' hd' => ?_
    · rw [handleClaudeFormat_eq]
    · refine s.tagged_of_mem ?_
      rw [upstream, hdeltas]
      exact mem_append_left _ (mem_map_of_mem (mem_cons_of_mem _ hd'))

theorem received_eq_sentAll (isAudioModel : Bool) (estimate : Usage) :
    (receiveAll Slots.empty (claudeStreamHandler e isAudioModel estimate s.chunks)).2 = sentAll s.toolId [] s.handled := by
  have hfinished : Choice.finished ⟨0, s.finish, some s.finishReason⟩ = true := by
    simp [Choice.finished, s.finishReason_ne]
  have htag : ∀ call ∈ s.finish.toolCalls, Tagged s.toolId call := s.tagged_of_mem (by simp [upstream])
  have hhandled : sentAll s.toolId [] s.handled = sentAll s.toolId [] s.handledDeltas ++
      sent s.toolId (openAll [] s.handledDeltas) s.finish s.finishMode := by
    rw [handled, sentAll_append]
    exact congrArg _ (append_nil _)
  obtain ⟨hdone, slots, hread, htracks⟩ := s.relays_deltas e
  have hcount := foldl_count e (s.deltas.map s.deltaChunk) ⟨.init, 0, []⟩
  rw [hhandled, chunks]
  generalize hr : (s.deltas.map s.deltaChunk).foldl (handleClaudeFormat e) ⟨.init, 0, []⟩ = r at hdone hread htracks hcount
  cases husage : s.usageOnly with
  | none =>
    obtain ⟨usage, hhandler⟩ := claudeStreamHandler_snoc e isAudioModel estimate (s.deltas.map s.deltaChunk) s.finishChunk
    have htracks' : Tracks s.toolId { r.info with usage := some usage } slots (openAll [] s.handledDeltas) :=
      htracks.congr rfl rfl rfl rfl
    change (receiveAll _ (claudeStreamHandler e isAudioModel estimate (s.deltas.map s.deltaChunk ++ [s.finishChunk]))).2 = _
    rw [hhandler, hr, handleFinalResponse, receiveAll_append_of hread]
    refine congrArg _ ((@items_stream s.toolId e _ s.finishChunk ⟨0, s.finish, some s.finishReason⟩
      { r.info with usage := some usage } _ _ rfl hdone htracks' htag).trans ?_)
    refine congrArg _ ?_
    unfold modeOf finishMode
    rw [hfinished, husage, hcount]
    simp [finishChunk]
  | some last =>
    obtain ⟨usage, hhandler⟩ := claudeStreamHandler_snoc e isAudioModel estimate
      (s.deltas.map s.deltaChunk ++ [s.finishChunk]) (s.usageChunk last)
    have hdone' : (withUsage r.info s.finishUsage).done = false := (withUsage_done _ _).trans hdone
    change (receiveAll _ (claudeStreamHandler e isAudioModel estimate
      (s.deltas.map s.deltaChunk ++ ([s.finishChunk] ++ [s.usageChunk last])))).2 = _
    rw [← append_assoc, hhandler, foldl_append, hr, foldl_cons, foldl_nil, handleFinalResponse,
      (silent_usageChunk e rfl).items_append, handleClaudeFormat_eq, receiveAll_append_of hread]
    refine congrArg _ ((@items_stream s.toolId e _ s.finishChunk ⟨0, s.finish, some s.finishReason⟩ _ _ _ rfl hdone'
      (htracks.withUsage _) htag).trans ?_)
    refine congrArg _ ?_
    unfold modeOf finishMode
    rw [hfinished, husage, hcount]
    simp [finishChunk]

end ChatStream

end HotAI.Stream
