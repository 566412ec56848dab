import HotAI.Stream.Blocks

/-! # When the events a Claude client gets are well formed -/
namespace HotAI.Stream
open HotAI.Lib List

/-! ## A whole stream -/

/-- At least three chunks with one choice each: deltas, one with the finish reason, perhaps one with only the usage. -/
structure Upstream where
  id : String
  model : String
  first : Delta × Option Usage
  rest : List (Delta × Option Usage)
  finish : Delta
  finishReason : String
  finishReason_ne : finishReason ≠ ""
  finishUsage : Option Usage
  usageOnly : Option Usage
  long : rest ≠ [] ∨ usageOnly.isSome
  indexed : ((first.1 :: rest.map Prod.fst ++ [finish]).foldlM introduceAll 0).isSome

namespace Upstream
variable (u : Upstream)

def deltaChunk (d : Delta × Option Usage) : Chunk := ⟨u.id, 0, u.model, none, [⟨0, d.1, none⟩], d.2⟩

def finishChunk : Chunk := ⟨u.id, 0, u.model, none, [⟨0, u.finish, some u.finishReason⟩], u.finishUsage⟩

def usageChunk (usage : Usage) : Chunk := ⟨u.id, 0, u.model, none, [], some usage⟩

def chunks : List Chunk :=
  u.deltaChunk u.first :: u.rest.map u.deltaChunk ++ u.finishChunk :: u.usageOnly.toList.map u.usageChunk

def processed : List Delta := u.rest.map Prod.fst ++ if u.finishUsage.isSome then [u.finish] else []

def firstTools : ℕ := (introduceAll 0 u.first.1).getD 0

def phases : Option Phase := u.processed.foldlM Phase.next (Phase.first u.firstTools u.first.1)

end Upstream

variable {info : ConvertInfo} {bs : Blocks} {n : ℕ} {phase : Phase}
    {d : Delta × Option Usage} {ds : List (Delta × Option Usage)} {chunkUsage : Option Usage} {info' : ConvertInfo}

theorem Follows.congr (h : Follows info bs n phase)
    (hlast : info'.lastMessagesType = info.lastMessagesType) (hindex : info'.index = info.index)
    (hbase : info'.toolCallBaseIndex = info.toolCallBaseIndex)
    (hmax : info'.toolCallMaxIndexOffset = info.toolCallMaxIndexOffset) : Follows info' bs n phase := by
  cases h with
  | start h₁ h₂ => exact .start (hlast.trans h₁) (hindex.trans h₂)
  | prose h₁ h₂ h₃ h₄ => exact .prose (hlast.symm ▸ h₁) h₂ (hindex.trans h₃) h₄
  | tools h₁ h₂ h₃ h₄ =>
    rw [← hmax] at h₄ ⊢
    exact .tools (hlast.trans h₁) h₂ (hbase.trans h₃) h₄

theorem Doomed.congr (h : Doomed info bs n) (hlast : info'.lastMessagesType = info.lastMessagesType)
    (hbase : info'.toolCallBaseIndex = info.toolCallBaseIndex)
    (hmax : info'.toolCallMaxIndexOffset = info.toolCallMaxIndexOffset) : Doomed info' bs n :=
  ⟨hlast.trans h.last, by rw [hbase, hmax]; exact h.short, by rw [hbase]; exact h.late⟩

theorem stopOpenBlocksAndAdvance_done (info : ConvertInfo) : (stopOpenBlocksAndAdvance info).1.done = info.done := by
  unfold stopOpenBlocksAndAdvance
  cases info.lastMessagesType <;> rfl

theorem proseDelta_done (type : LastMessageType) (block : Block) (delta : BlockDelta) (info : ConvertInfo) :
    (proseDelta type block delta info).1.done = info.done := by
  unfold proseDelta
  split
  · rfl
  · exact stopOpenBlocksAndAdvance_done info

theorem toolDeltas_done (calls : List ToolCallResponse) (info : ConvertInfo) :
    (toolDeltas calls info).1.done = info.done := by
  by_cases hlast : info.lastMessagesType = .tools
  · rw [toolDeltas_tools hlast]
  · unfold toolDeltas
    rw [if_neg hlast]
    exact stopOpenBlocksAndAdvance_done info

theorem deltaEvents_done (delta : Delta) (info : ConvertInfo) : (deltaEvents delta info).1.done = info.done := by
  unfold deltaEvents
  split
  · exact toolDeltas_done _ info
  · split
    · exact proseDelta_done _ _ _ info
    · split
      · exact proseDelta_done _ _ _ info
      · rfl

structure Live (r : ClaudeRelay) : Prop where
  done : r.info.done = false
  count : 1 ≤ r.sendResponseCount

structure Good (r : ClaudeRelay) (n : ℕ) (phase : Phase) : Prop extends Live r where
  follows : ∃ bs, read .fresh r.out = some (.message bs) ∧ Follows r.info bs n phase

structure Bad (r : ClaudeRelay) (n : ℕ) : Prop extends Live r where
  fails : Fails r.info n (read .fresh r.out)

def withUsage (info : ConvertInfo) : Option Usage → ConvertInfo
  | none => info
  | some usage => { info with usage := some usage }

theorem withUsage_done (info : ConvertInfo) (usage : Option Usage) : (withUsage info usage).done = info.done := by
  cases usage <;> rfl

theorem Follows.withUsage (h : Follows info bs n phase)
    (usage : Option Usage) : Follows (withUsage info usage) bs n phase := by
  cases usage <;> exact h.congr rfl rfl rfl rfl

theorem Doomed.withUsage (h : Doomed info bs n) (usage : Option Usage) : Doomed (withUsage info usage) bs n := by
  cases usage <;> exact h.congr rfl rfl rfl

variable (u : Upstream) (e : ℤ)

theorem handleClaudeFormat_eq (r : ClaudeRelay) (chunk : Chunk) : handleClaudeFormat e r chunk =
    ⟨(streamResponseOpenAI2Claude e (r.sendResponseCount + 1) chunk (withUsage r.info chunk.usage)).1,
      r.sendResponseCount + 1,
      r.out ++ (streamResponseOpenAI2Claude e (r.sendResponseCount + 1) chunk (withUsage r.info chunk.usage)).2⟩ := by
  cases husage : chunk.usage <;> simp only [handleClaudeFormat, husage, withUsage]

theorem foldl_count (chunks : List Chunk) (r : ClaudeRelay) :
    (chunks.foldl (handleClaudeFormat e) r).sendResponseCount = r.sendResponseCount + chunks.length := by
  induction chunks generalizing r with
  | nil => rfl
  | cons chunk chunks ih =>
    rw [foldl_cons, ih, handleClaudeFormat_eq, length_cons]
    dsimp only
    omega

theorem stream_unfinished {count : ℕ} (hcount : count ≠ 1) {info : ConvertInfo} (hdone : info.done = false) {chunk : Chunk}
    {choice : Choice} (hchoices : chunk.choices = [choice]) (hfinished : choice.finished = false) :
    streamResponseOpenAI2Claude e count chunk info = deltaEvents choice.delta info := by
  unfold streamResponseOpenAI2Claude
  rw [if_neg (by simp [hdone]), if_neg hcount, hchoices]
  dsimp only
  rw [hfinished]
  rfl

variable {r : ClaudeRelay} {n' : ℕ}

theorem handle_deltaChunk (h : Live r) (d : Delta × Option Usage) : handleClaudeFormat e r (u.deltaChunk d) =
      ⟨(deltaEvents d.1 (withUsage r.info d.2)).1, r.sendResponseCount + 1,
        r.out ++ (deltaEvents d.1 (withUsage r.info d.2)).2⟩ := by
  have hcount : r.sendResponseCount + 1 ≠ 1 := by have := h.count; omega
  have hdone : (withUsage r.info d.2).done = false := (withUsage_done _ _).trans h.done
  rw [handleClaudeFormat_eq, show (u.deltaChunk d).usage = d.2 from rfl,
    @stream_unfinished e _ hcount _ hdone (u.deltaChunk d) _ rfl rfl]

theorem Fails.append {info : ConvertInfo} {n n' : ℕ} {info' : ConvertInfo} {r : Option Reader} {events : List ClaudeEvent}
    (h : Fails info n r) (hnext : ∀ bs, Doomed info bs n → Fails info' n' (read (.message bs) events)) :
    Fails info' n' (r.bind fun r => read r events) := by
  obtain rfl | ⟨bs, rfl, hdoomed⟩ := h
  · exact .inl rfl
  · exact hnext bs hdoomed

theorem Bad.deltaChunk (h : Bad r n)
    (hcalls : introduceAll n d.1 = some n') : Bad (handleClaudeFormat e r (u.deltaChunk d)) n' := by
  rw [handle_deltaChunk u e h.toLive]
  refine ⟨⟨?_, Nat.le_add_left 1 _⟩, ?_⟩
  · exact (deltaEvents_done _ _).trans ((withUsage_done _ _).trans h.done)
  · rw [read_append]
    exact h.fails.append fun bs hdoomed => (hdoomed.withUsage d.2).deltaEvents hcalls

theorem Good.deltaChunk {phase' : Phase} (h : Good r n phase)
    (hcalls : introduceAll n d.1 = some n') (hnext : phase.next d.1 = some phase') :
    Good (handleClaudeFormat e r (u.deltaChunk d)) n' phase' := by
  obtain ⟨bs, hread, hfollows⟩ := h.follows
  obtain ⟨bs', hread', hfollows'⟩ := deltaEvents_follows (hfollows.withUsage d.2) hcalls hnext
  rw [handle_deltaChunk u e h.toLive]
  refine ⟨⟨?_, Nat.le_add_left 1 _⟩, bs', ?_, hfollows'⟩
  · exact (deltaEvents_done _ _).trans ((withUsage_done _ _).trans h.done)
  · rw [read_append_of hread]
    exact hread'

theorem Good.deltaChunk_fails (h : Good r n phase) (hcalls : introduceAll n d.1 = some n') (hnext : phase.next d.1 = none) :
    Bad (handleClaudeFormat e r (u.deltaChunk d)) n' := by
  obtain ⟨bs, hread, hfollows⟩ := h.follows
  rw [handle_deltaChunk u e h.toLive]
  refine ⟨⟨?_, Nat.le_add_left 1 _⟩, ?_⟩
  · exact (deltaEvents_done _ _).trans ((withUsage_done _ _).trans h.done)
  · rw [read_append_of hread]
    exact deltaEvents_fails (hfollows.withUsage d.2) hcalls hnext

theorem introduceAll_cons {d : Delta} {ds : List Delta} (h : (d :: ds).foldlM introduceAll n = some n') :
    ∃ n₁, introduceAll n d = some n₁ ∧ ds.foldlM introduceAll n₁ = some n' := by
  exact Option.bind_eq_some_iff.mp h

theorem Bad.rest (h : Bad r n) (hcalls : (ds.map Prod.fst).foldlM introduceAll n = some n') :
    Bad ((ds.map u.deltaChunk).foldl (handleClaudeFormat e) r) n' := by
  induction ds generalizing r n with
  | nil =>
    obtain rfl := Option.some.inj hcalls
    exact h
  | cons d ds ih =>
    obtain ⟨n₁, hd, hds⟩ := introduceAll_cons hcalls
    exact ih (h.deltaChunk u e hd) hds

theorem Good.rest (h : Good r n phase) (hcalls : (ds.map Prod.fst).foldlM introduceAll n = some n') :
    (∃ phase', (ds.map Prod.fst).foldlM Phase.next phase = some phase' ∧
        Good ((ds.map u.deltaChunk).foldl (handleClaudeFormat e) r) n' phase') ∨
      (ds.map Prod.fst).foldlM Phase.next phase = none ∧ Bad ((ds.map u.deltaChunk).foldl (handleClaudeFormat e) r) n' := by
  induction ds generalizing r n phase with
  | nil =>
    obtain rfl := Option.some.inj hcalls
    exact .inl ⟨phase, rfl, h⟩
  | cons d ds ih =>
    obtain ⟨n₁, hd, hds⟩ := introduceAll_cons hcalls
    rw [map_cons, foldlM_cons]
    cases hnext : phase.next d.1 with
    | none => exact .inr ⟨rfl, (h.deltaChunk_fails u e hd hnext).rest u e hds⟩
    | some phase' => exact ih (h.deltaChunk u e hd hnext) hds

/-! ## Its first chunk and its end -/

theorem firstProseDelta_follows {type : LastMessageType} {block : Block} {delta : BlockDelta}
    (hprose : IsProse type block delta) (hlast : info.lastMessagesType ≠ type)
    (h : Follows info bs n phase) :
    ∃ bs', read (.message bs) (firstProseDelta type block delta info).2 = some (.message bs') ∧
      Follows (firstProseDelta type block delta info).1 bs' n phase.afterProse := by
  obtain ⟨before, hstopped, hindex, hread⟩ := read_newProse h.settles block delta hprose.kind
  unfold firstProseDelta
  rw [if_neg hlast]
  exact ⟨_, hread, hprose.follows hstopped hindex h.afterProse⟩

theorem first_prose (h : Follows info bs n phase)
    (hlast : info.lastMessagesType = .none ∨ info.lastMessagesType = .tools) (delta : Delta) :
    let prose := if delta.getReasoningContent ≠ "" then
        firstProseDelta .thinking .thinking (.thinkingDelta delta.getReasoningContent) info
      else if delta.getContentString ≠ "" then firstProseDelta .text .text (.textDelta delta.getContentString) info
      else (info, [])
    ∃ bs', read (.message bs) prose.2 = some (.message bs') ∧
      Follows prose.1 bs' n (if delta.hasProse then phase.afterProse else phase) := by
  have hne : info.lastMessagesType ≠ .thinking ∧ info.lastMessagesType ≠ .text := by
    obtain h | h := hlast <;> simp [h]
  split
  · rename_i hreasoning
    rw [if_pos (by simp [Delta.hasProse, hreasoning])]
    exact firstProseDelta_follows (.thinking _) hne.1 h
  · split
    · rename_i hcontent
      rw [if_pos (by simp [Delta.hasProse, hcontent])]
      exact firstProseDelta_follows (.text _) hne.2 h
    · rw [if_neg (by simp_all [Delta.hasProse])]
      exact ⟨bs, rfl, h⟩

theorem firstToolCall_follows {call : ToolCallResponse} {n : ℕ} (info : ConvertInfo) (hn : 0 < n) :
    read (.message []) (firstToolCall call info).2 = some (.message [(.tool, true)]) ∧
      Follows (firstToolCall call info).1 [(.tool, true)] n (.run (1 < n)) := by
  constructor
  · unfold firstToolCall
    have hstart := read_start [] (.toolUse call.id call.function.name)
    rw [length_nil] at hstart
    rw [hstart]
    split
    · exact read_delta rfl []
    · rfl
  · have hphase : Phase.run (decide (1 < n)) = .run false ∧ n = 0 + 1 ∨ Phase.run (decide (1 < n)) = .run true ∧ 0 = 0 ∧ 1 < n := by
      by_cases h : 1 < n
      · exact .inr ⟨by rw [decide_eq_true h], rfl, h⟩
      · exact .inl ⟨by rw [decide_eq_false h], by omega⟩
    exact @Follows.tools (firstToolCall call info).1 [] n _ rfl (fun b hb => by cases hb) rfl hphase

theorem firstDelta_follows (hlast : info.lastMessagesType = .none) (hindex : info.index = 0)
    {delta : Delta} (hcalls : introduceAll 0 delta = some n) :
    ∃ bs, read (.message []) (firstDelta delta info).2 = some (.message bs) ∧
      Follows (firstDelta delta info).1 bs n (Phase.first n delta) := by
  unfold firstDelta Phase.first
  cases htools : delta.toolCalls with
  | nil =>
    rw [introduceAll, htools] at hcalls
    obtain rfl := Option.some.inj hcalls
    obtain ⟨bs, hread, hfollows⟩ := first_prose (.start hlast hindex) (.inl hlast) delta
    refine ⟨bs, hread, ?_⟩
    have hphase : (if delta.hasProse then Phase.before.afterProse else .before) = Phase.before := by split <;> rfl
    rwa [hphase] at hfollows
  | cons call calls =>
    have hne : delta.toolCalls ≠ [] := by
      rw [htools]
      exact cons_ne_nil call calls
    have hn : 0 < n := introduce_pos hne hcalls
    obtain ⟨hread, hfollows⟩ := @firstToolCall_follows call n info hn
    obtain ⟨bs, hread', hfollows'⟩ := first_prose hfollows (.inr rfl) delta
    refine ⟨bs, ?_, hfollows'⟩
    rw [read_append_of hread]
    exact hread'

theorem firstProseDelta_done (type : LastMessageType) (block : Block) (delta : BlockDelta) (info : ConvertInfo) :
    (firstProseDelta type block delta info).1.done = info.done := by
  unfold firstProseDelta
  by_cases h : info.lastMessagesType = type
  · rw [if_pos h]
  · rw [if_neg h]
    exact stopOpenBlocksAndAdvance_done info

theorem firstDelta_done (delta : Delta) (info : ConvertInfo) : (firstDelta delta info).1.done = info.done := by
  have hprose : ∀ info : ConvertInfo, (if delta.getReasoningContent ≠ "" then
        firstProseDelta .thinking .thinking (.thinkingDelta delta.getReasoningContent) info
      else if delta.getContentString ≠ "" then firstProseDelta .text .text (.textDelta delta.getContentString) info
      else (info, [])).1.done = info.done := by
    intro info
    split
    · exact firstProseDelta_done _ _ _ info
    · split
      · exact firstProseDelta_done _ _ _ info
      · rfl
  unfold firstDelta
  cases delta.toolCalls with
  | nil => exact hprose info
  | cons call calls => exact hprose (firstToolCall call info).1

theorem good_first (hcalls : introduceAll 0 u.first.1 = some n) :
    Good (handleClaudeFormat e ⟨.init, 0, []⟩ (u.deltaChunk u.first)) n (Phase.first n u.first.1) := by
  have heq : handleClaudeFormat e ⟨.init, 0, []⟩ (u.deltaChunk u.first) =
      ⟨(firstDelta u.first.1 (withUsage .init u.first.2)).1, 1,
        .messageStart u.id u.model e :: (firstDelta u.first.1 (withUsage .init u.first.2)).2⟩ := by
    obtain ⟨-, usage⟩ := u.first
    cases usage <;>
      simp [handleClaudeFormat, Upstream.deltaChunk, streamResponseOpenAI2Claude, withUsage, ConvertInfo.init,
        Choice.finished]
  have hlast : (withUsage .init u.first.2).lastMessagesType = .none := by cases u.first.2 <;> rfl
  have hindex : (withUsage .init u.first.2).index = 0 := by cases u.first.2 <;> rfl
  obtain ⟨bs, hread, hfollows⟩ := firstDelta_follows hlast hindex hcalls
  rw [heq]
  refine ⟨⟨(firstDelta_done _ _).trans (withUsage_done _ _), le_rfl⟩, bs, ?_, hfollows⟩
  exact hread

theorem all_stopped (h : AllStopped bs) : (bs.all fun b => !b.2) = true := by
  rw [all_eq_true]
  intro b hb
  rw [h b hb]
  rfl

theorem closeMessage_snd {stopReason : String}
    (h : (chunkUsage <|> info.usage).isSome) : ∃ usage, (closeMessage chunkUsage stopReason info).2 =
      stopOpenBlocks info ++ [.messageDelta usage stopReason, .messageStop] := by
  obtain ⟨usage, husage⟩ := Option.isSome_iff_exists.mp h
  refine ⟨buildClaudeUsageFromOpenAIUsage usage, ?_⟩
  simp [closeMessage, husage]

theorem close_settles (h : Settles info bs) (husage : (chunkUsage <|> info.usage).isSome) (stopReason : String) :
    read (.message bs) (closeMessage chunkUsage stopReason info).2 = some .closed := by
  obtain ⟨bs', hread, hstopped, -⟩ := h
  obtain ⟨usage, hclose⟩ := closeMessage_snd husage
  rw [hclose, read_append_of hread, read_cons, Reader.step, if_pos (all_stopped hstopped)]
  rfl

theorem close_doomed (h : Doomed info bs n) (chunkUsage : Option Usage)
    (stopReason : String) : read (.message bs) (closeMessage chunkUsage stopReason info).2 = none := by
  unfold closeMessage
  rw [append_assoc]
  exact read_append_none h.stops _

def finishEvents (delta : Delta) (usage : Usage) (stopReason : String) (info : ConvertInfo) : List ClaudeEvent :=
  (deltaEvents delta info).2 ++ (closeMessage (some usage) stopReason (deltaEvents delta info).1).2

theorem Bad.finish {r : ClaudeRelay} {n n' : ℕ} (h : Bad r n) {info : ConvertInfo}
    (hinfo : ∀ bs, Doomed r.info bs n → Doomed info bs n) {delta : Delta} (hcalls : introduceAll n delta = some n')
    (usage : Usage) (stopReason : String) :
    read .fresh (r.out ++ finishEvents delta usage stopReason info) = none := by
  rw [read_append]
  obtain hnone | ⟨bs, hread, hdoomed⟩ := h.fails
  · rw [hnone]
    rfl
  · rw [hread, Option.bind_some, finishEvents]
    obtain hnone | ⟨bs', hread', hdoomed'⟩ := (hinfo bs hdoomed).deltaEvents hcalls
    · exact read_append_none hnone _
    · rw [read_append_of hread', close_doomed hdoomed']

theorem Good.finish {r : ClaudeRelay} {n n' : ℕ} {phase : Phase} (h : Good r n phase) {info : ConvertInfo}
    (hinfo : ∀ bs, Follows r.info bs n phase → Follows info bs n phase) {delta : Delta}
    (hcalls : introduceAll n delta = some n') (usage : Usage) (stopReason : String) :
    read .fresh (r.out ++ finishEvents delta usage stopReason info) = some .closed ↔ (phase.next delta).isSome := by
  obtain ⟨bs, hread, hfollows⟩ := h.follows
  rw [read_append_of hread, finishEvents]
  cases hnext : phase.next delta with
  | some phase' =>
    obtain ⟨bs', hread', hfollows'⟩ := deltaEvents_follows (hinfo bs hfollows) hcalls hnext
    rw [read_append_of hread', close_settles hfollows'.settles rfl]
    simp
  | none =>
    have hnone : read (.message bs) ((deltaEvents delta info).2 ++
        (closeMessage (some usage) stopReason (deltaEvents delta info).1).2) = none := by
      obtain hnone | ⟨bs', hread', hdoomed⟩ := deltaEvents_fails (hinfo bs hfollows) hcalls hnext
      · exact read_append_none hnone _
      · rw [read_append_of hread', close_doomed hdoomed]
    rw [hnone]
    simp

namespace Upstream

def relayed : ClaudeRelay :=
  (u.rest.map u.deltaChunk).foldl (handleClaudeFormat e) (handleClaudeFormat e ⟨.init, 0, []⟩ (u.deltaChunk u.first))

theorem relayed_count : (u.relayed e).sendResponseCount = u.rest.length + 1 := by
  rw [relayed, foldl_count, length_map, handleClaudeFormat_eq]
  dsimp only
  omega

theorem introduced : ∃ n n' n'', introduceAll 0 u.first.1 = some n ∧
    (u.rest.map Prod.fst).foldlM introduceAll n = some n' ∧ introduceAll n' u.finish = some n'' := by
  obtain ⟨n'', hall⟩ := Option.isSome_iff_exists.mp u.indexed
  rw [cons_append] at hall
  obtain ⟨n, hfirst, hrest⟩ := introduceAll_cons hall
  rw [foldlM_append] at hrest
  obtain ⟨n', hrest', hfinish⟩ := Option.bind_eq_some_iff.mp hrest
  obtain ⟨n₃, hlast, -⟩ := introduceAll_cons hfinish
  exact ⟨n, n', n₃, hfirst, hrest', hlast⟩

theorem stream_finish {count : ℕ} (hcount : count ≠ 1) {info : ConvertInfo} (hdone : info.done = false) :
    streamResponseOpenAI2Claude e count u.finishChunk info = match u.finishUsage with
      | none => ({ info with finishReason := u.finishReason }, [])
      | some usage =>
          ((closeMessage (some usage) (stopReasonOpenAI2Claude
              (deltaEvents u.finish { info with finishReason := u.finishReason }).1.finishReason)
              (deltaEvents u.finish { info with finishReason := u.finishReason }).1).1,
            finishEvents u.finish usage (stopReasonOpenAI2Claude
              (deltaEvents u.finish { info with finishReason := u.finishReason }).1.finishReason)
              { info with finishReason := u.finishReason }) := by
  have hfinished : Choice.finished ⟨0, u.finish, some u.finishReason⟩ = true := by
    simp [Choice.finished, u.finishReason_ne]
  unfold streamResponseOpenAI2Claude
  rw [if_neg (by simp [hdone]), if_neg hcount]
  cases husage : u.finishUsage <;>
    simp [finishChunk, hfinished, husage, finishEvents]

theorem stream_usage {count : ℕ} (hcount : count ≠ 1) {info : ConvertInfo} (hdone : info.done = false) (usage : Usage) :
    ∃ stopReason, (streamResponseOpenAI2Claude e count (u.usageChunk usage) info).2 =
      (closeMessage (some usage) stopReason info).2 := by
  refine ⟨if stopReasonOpenAI2Claude info.finishReason = "" then "end_turn"
    else stopReasonOpenAI2Claude info.finishReason, ?_⟩
  unfold streamResponseOpenAI2Claude
  rw [if_neg (by simp [hdone]), if_neg hcount]
  simp [usageChunk]

theorem phases_eq (hfirst : introduceAll 0 u.first.1 = some n) :
    u.phases = ((u.rest.map Prod.fst).foldlM Phase.next (Phase.first n u.first.1)).bind fun phase =>
      if u.finishUsage.isSome then phase.next u.finish else some phase := by
  rw [phases, processed, firstTools, hfirst, foldlM_append]
  refine congrArg _ (funext fun phase => ?_)
  split
  · rw [foldlM_cons]
    cases phase.next u.finish <;> rfl
  · rfl

theorem relayed_good_or_bad (hfirst : introduceAll 0 u.first.1 = some n)
    (hrest : (u.rest.map Prod.fst).foldlM introduceAll n = some n') :
    (∃ phase, (u.rest.map Prod.fst).foldlM Phase.next (Phase.first n u.first.1) = some phase ∧ Good (u.relayed e) n' phase) ∨
      (u.rest.map Prod.fst).foldlM Phase.next (Phase.first n u.first.1) = none ∧ Bad (u.relayed e) n' :=
  (good_first u e hfirst).rest u e hrest

theorem relayed_live : Live (u.relayed e) := by
  obtain ⟨n, n', -, hfirst, hrest, -⟩ := u.introduced
  obtain ⟨phase, -, hgood⟩ | ⟨-, hbad⟩ := u.relayed_good_or_bad e hfirst hrest
  · exact hgood.toLive
  · exact hbad.toLive

section Ends
variable {info : ConvertInfo} (hlast : info.lastMessagesType = (u.relayed e).info.lastMessagesType)
  (hindex : info.index = (u.relayed e).info.index)
  (hbase : info.toolCallBaseIndex = (u.relayed e).info.toolCallBaseIndex)
  (hmax : info.toolCallMaxIndexOffset = (u.relayed e).info.toolCallMaxIndexOffset)
include hlast hindex hbase hmax

theorem finish_closed_iff {usage : Usage} (husage : u.finishUsage = some usage) (stopReason : String) :
    read .fresh ((u.relayed e).out ++ finishEvents u.finish usage stopReason info) = some .closed ↔ u.phases.isSome := by
  obtain ⟨n, n', n'', hfirst, hrest, hfinish⟩ := u.introduced
  rw [u.phases_eq hfirst, husage]
  obtain ⟨phase, hphase, hgood⟩ | ⟨hphase, hbad⟩ := u.relayed_good_or_bad e hfirst hrest <;> rw [hphase]
  · exact hgood.finish (fun bs h => h.congr hlast hindex hbase hmax) hfinish usage stopReason
  · rw [hbad.finish (fun bs h => h.congr hlast hbase hmax) hfinish usage stopReason]
    simp

theorem usage_closed_iff (husage : u.finishUsage = none) (usage : Usage) (stopReason : String) :
    read .fresh ((u.relayed e).out ++ (closeMessage (some usage) stopReason info).2) = some .closed ↔ u.phases.isSome := by
  obtain ⟨n, n', -, hfirst, hrest, -⟩ := u.introduced
  rw [u.phases_eq hfirst, husage, read_append]
  obtain ⟨phase, hphase, hgood⟩ | ⟨hphase, hbad⟩ := u.relayed_good_or_bad e hfirst hrest <;> rw [hphase]
  · obtain ⟨bs, hread, hfollows⟩ := hgood.follows
    rw [hread, Option.bind_some, close_settles (hfollows.congr hlast hindex hbase hmax).settles rfl]
    simp
  · obtain hnone | ⟨bs, hread, hdoomed⟩ := hbad.fails
    · rw [hnone]
      simp
    · rw [hread, Option.bind_some, close_doomed (hdoomed.congr hlast hbase hmax)]
      simp

end Ends

theorem relayed_not_closed : read .fresh (u.relayed e).out ≠ some .closed := by
  obtain ⟨n, n', -, hfirst, hrest, -⟩ := u.introduced
  obtain ⟨phase, -, hgood⟩ | ⟨-, hbad⟩ := u.relayed_good_or_bad e hfirst hrest
  · obtain ⟨bs, hread, -⟩ := hgood.follows
    rw [hread]
    simp
  · obtain hnone | ⟨bs, hread, -⟩ := hbad.fails
    · rw [hnone]
      simp
    · rw [hread]
      simp

/-- A well-formed message results exactly if usage comes in or after the finish chunk, tool calls come in one run of chunks,
and no other tool than the first follows a first chunk with several. -/
theorem claude_message_wellFormed_iff (isAudioModel : Bool) (estimate : Usage) :
    WellFormed (claudeStreamHandler e isAudioModel estimate u.chunks) ↔
      (u.finishUsage.isSome ∨ u.usageOnly.isSome) ∧ u.phases.isSome := by
  have hlive := u.relayed_live e
  cases husageOnly : u.usageOnly with
  | none =>
    have hcount : (u.relayed e).sendResponseCount ≠ 1 := by
      have hrest : u.rest ≠ [] := u.long.resolve_right (by simp [husageOnly])
      have hlen := length_pos_iff.mpr hrest
      rw [relayed_count]
      omega
    have hchunks : u.chunks = (u.deltaChunk u.first :: u.rest.map u.deltaChunk) ++ [u.finishChunk] := by
      simp [chunks, husageOnly]
    obtain ⟨usage, hout⟩ := claudeStreamHandler_snoc e isAudioModel estimate
      (u.deltaChunk u.first :: u.rest.map u.deltaChunk) u.finishChunk
    rw [hchunks, hout]
    change read .fresh (handleFinalResponse e usage (u.relayed e) u.finishChunk).out = _ ↔ _
    have hstream := @stream_finish u e _ hcount { (u.relayed e).info with usage := some usage } hlive.done
    unfold handleFinalResponse
    rw [hstream]
    cases hfinish : u.finishUsage with
    | none =>
      simp only [append_nil, Option.isSome_none, Bool.false_eq_true, or_self, false_and, iff_false]
      exact u.relayed_not_closed e
    | some finishUsage =>
      simp only [Option.isSome_some, true_or, true_and]
      refine u.finish_closed_iff e ?_ ?_ ?_ ?_ hfinish _ <;> rfl
  | some last =>
    have hchunks : u.chunks =
        (u.deltaChunk u.first :: u.rest.map u.deltaChunk ++ [u.finishChunk]) ++ [u.usageChunk last] := by
      simp [chunks, husageOnly]
    obtain ⟨usage, hout⟩ := claudeStreamHandler_snoc e isAudioModel estimate
      (u.deltaChunk u.first :: u.rest.map u.deltaChunk ++ [u.finishChunk]) (u.usageChunk last)
    rw [hchunks, hout, foldl_append]
    change read .fresh (handleFinalResponse e usage (handleClaudeFormat e (u.relayed e) u.finishChunk)
      (u.usageChunk last)).out = _ ↔ _
    have hcount : (u.relayed e).sendResponseCount + 1 ≠ 1 := by
      have := hlive.count
      omega
    simp only [Option.isSome_some, or_true, true_and]
    have hdone : (withUsage (u.relayed e).info u.finishUsage).done = false := (withUsage_done _ _).trans hlive.done
    have hstream := @stream_finish u e _ hcount _ hdone
    rw [handleClaudeFormat_eq, show u.finishChunk.usage = u.finishUsage from rfl, hstream]
    cases hfinish : u.finishUsage with
    | none =>
      rw [hfinish] at hdone
      obtain ⟨stopReason, hevents⟩ := @stream_usage u e _ hcount
        { withUsage (u.relayed e).info none with finishReason := u.finishReason, usage := some usage } hdone last
      simp only [handleFinalResponse, append_nil]
      rw [hevents]
      refine u.usage_closed_iff e ?_ ?_ ?_ ?_ hfinish last stopReason <;> rfl
    | some finishUsage =>
      -- the message is done: the last chunk adds nothing
      have hclosed : ∀ info : ConvertInfo, info.done = true →
          streamResponseOpenAI2Claude e ((u.relayed e).sendResponseCount + 1) (u.usageChunk last) info = (info, []) := by
        intro info hdone
        rw [streamResponseOpenAI2Claude, if_pos hdone]
      simp only [handleFinalResponse]
      rw [hclosed _ rfl, append_nil]
      refine u.finish_closed_iff e ?_ ?_ ?_ ?_ hfinish _ <;> rfl

end Upstream

/-- No usage at all: the finish chunk is the last one, and the message is never closed. -/
def unclosedStream : Upstream where
  id := "r"
  model := "m"
  first := (⟨none, none, none, []⟩, none)
  rest := [(⟨some "hi", none, none, []⟩, none)]
  finish := ⟨none, none, none, []⟩
  finishReason := "stop"
  finishReason_ne := by decide
  finishUsage := none
  usageOnly := none
  long := .inl (by simp)
  indexed := rfl

theorem message_not_closed : ¬ WellFormed (claudeStreamHandler 5 false ⟨5, 1, 0, 0, 0, 0⟩ unclosedStream.chunks) ∧
      claudeStreamHandler 5 false ⟨5, 1, 0, 0, 0, 0⟩ unclosedStream.chunks =
        [.messageStart "r" "m" 5, .contentBlockStart 0 .text, .contentBlockDelta 0 (.textDelta "hi")] := by
  have hevents : claudeStreamHandler 5 false ⟨5, 1, 0, 0, 0, 0⟩ unclosedStream.chunks =
      [.messageStart "r" "m" 5, .contentBlockStart 0 .text, .contentBlockDelta 0 (.textDelta "hi")] := by decide +kernel
  refine ⟨?_, hevents⟩
  rw [hevents]
  unfold WellFormed
  decide +kernel

end HotAI.Stream
