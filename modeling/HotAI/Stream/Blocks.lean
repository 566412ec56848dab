import HotAI.Stream.Claude

/-! # The blocks of a Claude message and the converter's state

A reader follows the events of one message. The converter's state is tied to the reader's by `Follows` while the reader
accepts; once tool calls arrive for blocks never started, the reader is stuck when the blocks are stopped (`Doomed`). -/
namespace HotAI.Stream
open HotAI.Lib List

/-! ## The reader -/

inductive Kind where
  | text
  | thinking
  | tool
deriving DecidableEq, Repr

def Block.kind : Block → Kind
  | .text => .text
  | .thinking => .thinking
  | .toolUse _ _ => .tool

def BlockDelta.kind : BlockDelta → Kind
  | .textDelta _ => .text
  | .thinkingDelta _ => .thinking
  | .inputJsonDelta _ => .tool

abbrev Blocks := List (Kind × Bool)

inductive Reader where
  | fresh
  | message (blocks : Blocks)
  | closing
  | closed
deriving DecidableEq, Repr

def Reader.step : Reader → ClaudeEvent → Option Reader
  | .fresh, .messageStart _ _ _ => some (.message [])
  | .message bs, .contentBlockStart i block =>
      if i = bs.length then some (.message (bs ++ [(block.kind, true)])) else none
  | .message bs, .contentBlockDelta i delta => if bs[i]? = some (delta.kind, true) then some (.message bs) else none
  | .message bs, .contentBlockStop i => match bs[i]? with
      | some (kind, true) => some (.message (bs.set i (kind, false)))
      | _ => none
  | .message bs, .messageDelta _ _ => if bs.all fun b => !b.2 then some .closing else none
  | .closing, .messageStop => some .closed
  | _, _ => none

def read (r : Reader) (events : List ClaudeEvent) : Option Reader := events.foldlM Reader.step r

/-- One `message_start`; blocks 0, 1, 2, … each started and stopped once with deltas of its kind; one `message_delta` and one
`message_stop`, last. -/
def WellFormed (events : List ClaudeEvent) : Prop := read .fresh events = some .closed

theorem read_append (r : Reader) (as bs : List ClaudeEvent) : read r (as ++ bs) = (read r as).bind fun r => read r bs :=
  foldlM_append

theorem read_cons (r : Reader) (a : ClaudeEvent) (as : List ClaudeEvent) :
    read r (a :: as) = (r.step a).bind fun r => read r as := foldlM_cons

@[simp] theorem read_nil (r : Reader) : read r [] = some r := rfl

variable {type : LastMessageType} {block : Block} {base i : ℕ} {as : List ClaudeEvent}

theorem read_append_of {r r' : Reader} (h : read r as = some r') (bs : List ClaudeEvent) :
    read r (as ++ bs) = read r' bs := by rw [read_append, h, Option.bind_some]

theorem read_append_none {r : Reader} (h : read r as = none) (bs : List ClaudeEvent) :
    read r (as ++ bs) = none := by rw [read_append, h, Option.bind_none]

def AllStopped (bs : Blocks) : Prop := ∀ b ∈ bs, b.2 = false

theorem read_start (bs : Blocks) (block : Block) (rest : List ClaudeEvent) :
    read (.message bs) (.contentBlockStart bs.length block :: rest) = read (.message (bs ++ [(block.kind, true)])) rest := by
  rw [read_cons, Reader.step, if_pos rfl, Option.bind_some]

variable {bs : Blocks}

theorem read_delta {delta : BlockDelta} (h : bs[i]? = some (delta.kind, true))
    (rest : List ClaudeEvent) : read (.message bs) (.contentBlockDelta i delta :: rest) = read (.message bs) rest := by
  rw [read_cons, Reader.step, if_pos h, Option.bind_some]

theorem read_stops (before : Blocks) (m : ℕ) : read (.message (before ++ List.replicate m (.tool, true)))
        ((List.range m).map fun offset => .contentBlockStop (before.length + offset)) =
      some (.message (before ++ List.replicate m (.tool, false))) := by
  induction m generalizing before with
  | zero => rfl
  | succ m ih =>
    have hget : (before ++ replicate (m + 1) (Kind.tool, true))[before.length]? = some (.tool, true) := by
      rw [getElem?_append_right le_rfl, Nat.sub_self]
      rfl
    have hset : (before ++ replicate (m + 1) (Kind.tool, true)).set before.length (.tool, false) =
        (before ++ [(.tool, false)]) ++ replicate m (.tool, true) := by
      rw [set_append_right _ _ le_rfl, Nat.sub_self, replicate_succ, append_assoc]
      rfl
    have htail := ih (before ++ [(.tool, false)])
    rw [length_append, length_singleton] at htail
    rw [range_succ_eq_map, map_cons, map_map, read_cons]
    simp only [Nat.add_zero, Reader.step, hget, Option.bind_some, hset]
    have hoffsets : (range m).map ((fun offset => ClaudeEvent.contentBlockStop (before.length + offset)) ∘ Nat.succ) =
        (range m).map fun offset => .contentBlockStop (before.length + 1 + offset) := by
      refine map_congr_left fun offset _ => ?_
      simp only [Function.comp_apply]
      congr 1
      omega
    rw [hoffsets, htail, append_assoc]
    rfl

theorem read_stops_none {base m : ℕ} (h : bs.length ≤ base + m) :
    read (.message bs) ((List.range (m + 1)).map fun offset => .contentBlockStop (base + offset)) = none := by
  -- the earlier stops are refused or keep the number of blocks
  have hkeep : ∀ k, read (.message bs) ((range k).map fun offset => .contentBlockStop (base + offset)) = none ∨
      ∃ bs', read (.message bs) ((range k).map fun offset => .contentBlockStop (base + offset)) =
        some (.message bs') ∧ bs'.length = bs.length := by
    intro k
    induction k with
    | zero => exact .inr ⟨bs, rfl, rfl⟩
    | succ k ih =>
      rw [range_succ, map_append]
      obtain hnone | ⟨bs', hbs', hlen⟩ := ih
      · exact .inl (read_append_none hnone _)
      · rw [read_append_of hbs', map_singleton, read_cons, Reader.step]
        split
        · exact .inr ⟨_, rfl, by rw [length_set, hlen]⟩
        · exact .inl rfl
  rw [range_succ, map_append]
  obtain hnone | ⟨bs', hbs', hlen⟩ := hkeep m
  · exact read_append_none hnone _
  · rw [read_append_of hbs', map_singleton, read_cons, Reader.step, getElem?_eq_none (by omega)]
    rfl

/-! ## Tool indices and phases of the upstream -/

/-- Tools are introduced in index order with id and name, then continued without a name; `n` counts them. -/
def introduce (n : ℕ) (call : ToolCallResponse) : Option ℕ :=
  match call.index with
  | none => none
  | some i =>
      if i < n then if call.function.name = "" then some n else none
      else if i = n ∧ call.function.name ≠ "" ∧ call.id ≠ "" then some (n + 1) else none

def introduceAll (n : ℕ) (delta : Delta) : Option ℕ := delta.toolCalls.foldlM introduce n

def Delta.hasProse (delta : Delta) : Bool := delta.getReasoningContent ≠ "" || delta.getContentString ≠ ""

/-- Before the tool calls, in their one run of chunks (and whether the first introduced more than it started), or past it. -/
inductive Phase where
  | before
  | run (capped : Bool)
  | over
deriving DecidableEq, Repr

def Phase.first (n : ℕ) (delta : Delta) : Phase :=
  if delta.toolCalls = [] then .before
  else if delta.hasProse then .over
  else .run (1 < n)

/-- None after tool calls that return after text or reasoning, or for another tool than the first of several in the first
chunk. -/
def Phase.afterTools (calls : List ToolCallResponse) : Phase → Option Phase
  | .before | .run false => some (.run false)
  | .run true => if calls.all fun call => call.index = some 0 then some (.run true) else none
  | .over => none

def Phase.afterProse : Phase → Phase
  | .before => .before
  | .run _ | .over => .over

def Phase.next (phase : Phase) (delta : Delta) : Option Phase :=
  if delta.toolCalls ≠ [] then phase.afterTools delta.toolCalls
  else if delta.hasProse then some phase.afterProse
  else some phase

/-! ## The converter and the reader -/

def Settles (info : ConvertInfo) (bs : Blocks) : Prop :=
  ∃ bs', read (.message bs) (stopOpenBlocks info) = some (.message bs') ∧ AllStopped bs' ∧
    (stopOpenBlocksAndAdvance info).1.index = bs'.length

theorem stopOpenBlocksAndAdvance_snd (info : ConvertInfo) : (stopOpenBlocksAndAdvance info).2 = stopOpenBlocks info := by
  unfold stopOpenBlocksAndAdvance stopOpenBlocks
  cases info.lastMessagesType <;> rfl

variable {info : ConvertInfo} {before : Blocks}

theorem settles_none (hlast : info.lastMessagesType = .none)
    (hbs : AllStopped bs) (hindex : info.index = bs.length) : Settles info bs := by
  refine ⟨bs, ?_, hbs, ?_⟩
  · rw [stopOpenBlocks, hlast]
    rfl
  · rw [stopOpenBlocksAndAdvance, hlast]
    exact hindex

theorem allStopped_snoc {kind : Kind} (h : AllStopped before) : AllStopped (before ++ [(kind, false)]) := by
  intro b hb
  obtain hb | hb := mem_append.mp hb
  · exact h b hb
  · rw [mem_singleton.mp hb]

theorem settles_prose {kind : Kind}
    (hlast : info.lastMessagesType = .text ∨ info.lastMessagesType = .thinking) (hbefore : AllStopped before)
    (hindex : info.index = before.length) : Settles info (before ++ [(kind, true)]) := by
  have hstops : stopOpenBlocks info = [.contentBlockStop before.length] := by
    rw [stopOpenBlocks]
    obtain h | h := hlast <;> rw [h, hindex]
  have hnext : (stopOpenBlocksAndAdvance info).1.index = before.length + 1 := by
    rw [stopOpenBlocksAndAdvance]
    obtain h | h := hlast <;> rw [h] <;> exact congrArg (· + 1) hindex
  refine ⟨before ++ [(kind, false)], ?_, allStopped_snoc hbefore, by rw [hnext]; simp⟩
  rw [hstops, read_cons, Reader.step, getElem?_append_right le_rfl]
  simp

theorem settles_tools (hlast : info.lastMessagesType = .tools)
    (hbefore : AllStopped before) (hbase : info.toolCallBaseIndex = before.length) :
    Settles info (before ++ List.replicate (info.toolCallMaxIndexOffset + 1) (.tool, true)) := by
  refine ⟨before ++ replicate (info.toolCallMaxIndexOffset + 1) (.tool, false), ?_, ?_, ?_⟩
  · rw [stopOpenBlocks, hlast, hbase]
    exact read_stops before _
  · intro b hb
    obtain hb | hb := mem_append.mp hb
    · exact hbefore b hb
    · rw [(mem_replicate.mp hb).2]
  · rw [stopOpenBlocksAndAdvance, hlast]
    simp [hbase]
    omega

/-- The converter in step with the reader, after `n` introduced tools. -/
inductive Follows (info : ConvertInfo) : Blocks → ℕ → Phase → Prop where
  | start (hlast : info.lastMessagesType = .none) (hindex : info.index = 0) : Follows info [] 0 .before
  | prose {before n phase kind}
      (hlast : info.lastMessagesType = .text ∧ kind = .text ∨ info.lastMessagesType = .thinking ∧ kind = .thinking)
      (hbefore : AllStopped before) (hindex : info.index = before.length)
      (hphase : phase = .before ∧ n = 0 ∨ phase = .over ∧ 0 < n) : Follows info (before ++ [(kind, true)]) n phase
  | tools {before n phase} (hlast : info.lastMessagesType = .tools) (hbefore : AllStopped before)
      (hbase : info.toolCallBaseIndex = before.length)
      (hphase : phase = .run false ∧ n = info.toolCallMaxIndexOffset + 1 ∨
        phase = .run true ∧ info.toolCallMaxIndexOffset = 0 ∧ 1 < n) :
      Follows info (before ++ List.replicate (info.toolCallMaxIndexOffset + 1) (.tool, true)) n phase

variable {n : ℕ} {phase : Phase}

theorem Follows.settles (h : Follows info bs n phase) : Settles info bs := by
  cases h with
  | start hlast hindex => exact settles_none hlast (fun b hb => by cases hb) hindex
  | prose hlast hbefore hindex => exact settles_prose (hlast.imp And.left And.left) hbefore hindex
  | tools hlast hbefore hbase => exact settles_tools hlast hbefore hbase

/-- Tool calls have been taken for blocks that do not exist and will not be started. -/
structure Doomed (info : ConvertInfo) (bs : Blocks) (n : ℕ) : Prop where
  last : info.lastMessagesType = .tools
  short : bs.length ≤ info.toolCallBaseIndex + info.toolCallMaxIndexOffset
  late : bs.length < info.toolCallBaseIndex + n

theorem Doomed.stops (h : Doomed info bs n) : read (.message bs) (stopOpenBlocks info) = none := by
  rw [stopOpenBlocks, h.last]
  exact read_stops_none h.short

/-! ## The loop over the tool calls of a chunk -/

variable {n' : ℕ} {call : ToolCallResponse} {calls : List ToolCallResponse}

theorem introduce_cases (h : introduce n call = some n') : ∃ i, call.index = some i ∧
      (i < n ∧ call.function.name = "" ∧ n' = n ∨ i = n ∧ call.function.name ≠ "" ∧ n' = n + 1) := by
  unfold introduce at h
  cases hindex : call.index with
  | none => simp [hindex] at h
  | some i =>
    simp only [hindex] at h
    refine ⟨i, rfl, ?_⟩
    split at h
    · split at h
      · exact .inl ⟨‹_›, ‹_›, (Option.some.inj h).symm⟩
      · cases h
    · split at h
      · rename_i hnew
        exact .inr ⟨hnew.1, hnew.2.1, (Option.some.inj h).symm⟩
      · cases h

theorem introduce_cons (h : (call :: calls).foldlM introduce n = some n') :
    ∃ n₁, introduce n call = some n₁ ∧ calls.foldlM introduce n₁ = some n' := by
  exact Option.bind_eq_some_iff.mp h

theorem introduce_le (h : calls.foldlM introduce n = some n') : n ≤ n' := by
  induction calls generalizing n with
  | nil => exact (Option.some.inj h).le
  | cons call calls ih =>
    obtain ⟨n₁, hcall, hcalls⟩ := introduce_cons h
    have hrest := ih hcalls
    obtain ⟨-, -, ⟨-, -, rfl⟩ | ⟨-, -, rfl⟩⟩ := introduce_cases hcall <;> omega

theorem introduce_pos (hne : calls ≠ []) (h : calls.foldlM introduce n = some n') : 0 < n' := by
  cases calls with
  | nil => exact absurd rfl hne
  | cons call calls =>
    obtain ⟨n₁, hcall, hcalls⟩ := introduce_cons h
    have hrest := introduce_le hcalls
    obtain ⟨i, -, ⟨hlt, -, rfl⟩ | ⟨-, -, rfl⟩⟩ := introduce_cases hcall <;> omega

theorem read_continue (hname : call.function.name = "")
    (hget : bs[base + i]? = some (.tool, true)) (rest : List ClaudeEvent) :
    read (.message bs) (toolCallEvents base i call ++ rest) = read (.message bs) rest := by
  unfold toolCallEvents
  rw [if_neg (not_not.mpr hname)]
  split
  · exact read_delta hget rest
  · rfl

theorem read_introduce (hname : call.function.name ≠ "") (hlen : base + i = bs.length) (rest : List ClaudeEvent) :
    read (.message bs) (toolCallEvents base i call ++ rest) = read (.message (bs ++ [(.tool, true)])) rest := by
  unfold toolCallEvents
  rw [if_pos hname, hlen, append_assoc, singleton_append, read_start]
  have hget : (bs ++ [(Kind.tool, true)])[bs.length]? = some (.tool, true) := by simp
  split
  · exact read_delta hget rest
  · rfl

theorem read_introduce_none (hname : call.function.name ≠ "") (hlen : base + i ≠ bs.length) (rest : List ClaudeEvent) :
    read (.message bs) (toolCallEvents base i call ++ rest) = none := by
  unfold toolCallEvents
  rw [if_pos hname, append_assoc, singleton_append, read_cons, Reader.step, if_neg hlen]
  rfl

theorem read_continue_or {bs : Blocks} {base i : ℕ} {call : ToolCallResponse} (hname : call.function.name = "")
    (rest : List ClaudeEvent) :
    read (.message bs) (toolCallEvents base i call ++ rest) = none ∨
      read (.message bs) (toolCallEvents base i call ++ rest) = read (.message bs) rest := by
  unfold toolCallEvents
  rw [if_neg (not_not.mpr hname), nil_append]
  split
  · rw [singleton_append, read_cons, Reader.step]
    split
    · exact .inr rfl
    · exact .inl rfl
  · exact .inr rfl

theorem loop_follows (before : Blocks) (k : ℕ) (h : calls.foldlM introduce n = some n') :
    (toolCallLoop before.length (n - 1) (calls.zipIdx k)).1 = n' - 1 ∧
      read (.message (before ++ List.replicate n (.tool, true))) (toolCallLoop before.length (n - 1) (calls.zipIdx k)).2 =
        some (.message (before ++ List.replicate n' (.tool, true))) := by
  induction calls generalizing n k with
  | nil =>
    obtain rfl := Option.some.inj h
    exact ⟨rfl, rfl⟩
  | cons call calls ih =>
    obtain ⟨n₁, hcall, hcalls⟩ := introduce_cons h
    obtain ⟨i, hindex, ⟨hlt, hname, rfl⟩ | ⟨rfl, hname, rfl⟩⟩ := introduce_cases hcall
    · have hmax : max (n₁ - 1) i = n₁ - 1 := by omega
      have hget : (before ++ replicate n₁ (Kind.tool, true))[before.length + i]? = some (.tool, true) := by
        simp [hlt]
      simp only [zipIdx_cons, toolCallLoop, hindex, Option.getD_some, hmax]
      rw [read_continue hname hget]
      exact ih (k + 1) hcalls
    · have hmax : max (i - 1) i = i + 1 - 1 := by omega
      have hlen : before.length + i = (before ++ replicate i (Kind.tool, true)).length := by simp
      simp only [zipIdx_cons, toolCallLoop, hindex, Option.getD_some, hmax]
      rw [read_introduce hname hlen, append_assoc, ← replicate_succ']
      exact ih (k + 1) hcalls

theorem loop_capped (before : Blocks) (k : ℕ) (hn : 1 < n)
    (hall : ∀ call ∈ calls, call.index = some 0) (h : calls.foldlM introduce n = some n') :
    n' = n ∧ (toolCallLoop before.length 0 (calls.zipIdx k)).1 = 0 ∧
      read (.message (before ++ [(.tool, true)])) (toolCallLoop before.length 0 (calls.zipIdx k)).2 =
        some (.message (before ++ [(.tool, true)])) := by
  induction calls generalizing k with
  | nil => exact ⟨(Option.some.inj h).symm, rfl, rfl⟩
  | cons call calls ih =>
    obtain ⟨n₁, hcall, hcalls⟩ := introduce_cons h
    have hzero := hall call mem_cons_self
    obtain ⟨i, hindex, hcase⟩ := introduce_cases hcall
    obtain rfl : i = 0 := Option.some.inj (hindex.symm.trans hzero)
    obtain ⟨-, hname, rfl⟩ | ⟨hzero', -⟩ := hcase
    · have hget : (before ++ [(Kind.tool, true)])[before.length + 0]? = some (.tool, true) := by simp
      simp only [zipIdx_cons, toolCallLoop, hindex, Option.getD_some, max_self]
      rw [read_continue hname hget]
      exact ih (k + 1) (fun c hc => hall c (mem_cons_of_mem _ hc)) hcalls
    · omega

theorem loop_doomed {bs : Blocks} {base m n n' : ℕ} {calls : List ToolCallResponse} (k : ℕ)
    (hlate : bs.length < base + n) (h : calls.foldlM introduce n = some n') :
    m ≤ (toolCallLoop base m (calls.zipIdx k)).1 ∧ (read (.message bs) (toolCallLoop base m (calls.zipIdx k)).2 = none ∨
        read (.message bs) (toolCallLoop base m (calls.zipIdx k)).2 = some (.message bs)) := by
  induction calls generalizing m n k with
  | nil => exact ⟨le_rfl, .inr rfl⟩
  | cons call calls ih =>
    obtain ⟨n₁, hcall, hcalls⟩ := introduce_cons h
    obtain ⟨i, hindex, ⟨-, hname, rfl⟩ | ⟨rfl, hname, rfl⟩⟩ := introduce_cases hcall
    · simp only [zipIdx_cons, toolCallLoop, hindex, Option.getD_some]
      obtain ⟨hmax, hread⟩ := @ih (max m i) n₁ (k + 1) hlate hcalls
      refine ⟨by omega, ?_⟩
      obtain hnone | hsame := @read_continue_or bs base i call hname
        (toolCallLoop base (max m i) (calls.zipIdx (k + 1))).2
      · exact .inl hnone
      · rw [hsame]
        exact hread
    · simp only [zipIdx_cons, toolCallLoop, hindex, Option.getD_some]
      obtain ⟨hmax, -⟩ := @ih (max m i) (i + 1) (k + 1) (by omega) hcalls
      exact ⟨by omega, .inl (read_introduce_none hname (by omega) _)⟩

theorem loop_capped_fails (before : Blocks) (k : ℕ) (hn : 1 < n)
    (hsome : ¬ ∀ call ∈ calls, call.index = some 0) (h : calls.foldlM introduce n = some n') :
    read (.message (before ++ [(.tool, true)])) (toolCallLoop before.length 0 (calls.zipIdx k)).2 = none ∨
      read (.message (before ++ [(.tool, true)])) (toolCallLoop before.length 0 (calls.zipIdx k)).2 =
        some (.message (before ++ [(.tool, true)])) ∧ 1 ≤ (toolCallLoop before.length 0 (calls.zipIdx k)).1 := by
  induction calls generalizing k with
  | nil => exact absurd (fun call hcall => by cases hcall) hsome
  | cons call calls ih =>
    obtain ⟨n₁, hcall, hcalls⟩ := introduce_cons h
    obtain ⟨i, hindex, ⟨-, hname, rfl⟩ | ⟨rfl, hname, rfl⟩⟩ := introduce_cases hcall
    · simp only [zipIdx_cons, toolCallLoop, hindex, Option.getD_some, Nat.zero_max]
      by_cases hi : i = 0
      · subst hi
        have hget : (before ++ [(Kind.tool, true)])[before.length + 0]? = some (.tool, true) := by simp
        rw [read_continue hname hget]
        refine ih (k + 1) (fun hall => hsome fun c hc => ?_) hcalls
        obtain rfl | hc := mem_cons.mp hc
        · exact hindex
        · exact hall c hc
      · -- either its delta finds no block, or it leaves the largest offset past the blocks
        have hlate : (before ++ [(Kind.tool, true)]).length < before.length + n₁ := by simp; omega
        obtain ⟨hmax, hread⟩ :=
          @loop_doomed (before ++ [(Kind.tool, true)]) before.length i n₁ n' calls (k + 1) hlate hcalls
        obtain hnone | hsame := @read_continue_or (before ++ [(Kind.tool, true)]) before.length i call hname
          (toolCallLoop before.length i (calls.zipIdx (k + 1))).2
        · exact .inl hnone
        · rw [hsame]
          exact hread.imp id fun hread => ⟨hread, by omega⟩
    · simp only [zipIdx_cons, toolCallLoop, hindex, Option.getD_some]
      exact .inl (read_introduce_none hname (by simp; omega) _)

/-! ## One chunk -/

theorem Follows.afterProse (h : Follows info bs n phase) :
    phase.afterProse = .before ∧ n = 0 ∨ phase.afterProse = .over ∧ 0 < n := by
  cases h with
  | start => exact .inl ⟨rfl, rfl⟩
  | prose _ _ _ hphase =>
    obtain ⟨rfl, hn⟩ | ⟨rfl, hn⟩ := hphase
    · exact .inl ⟨rfl, hn⟩
    · exact .inr ⟨rfl, hn⟩
  | tools _ _ _ hphase =>
    right
    obtain ⟨rfl, hn⟩ | ⟨rfl, -, hn⟩ := hphase
    · exact ⟨rfl, by omega⟩
    · exact ⟨rfl, by omega⟩

theorem read_newProse (h : Settles info bs) (block : Block) (delta : BlockDelta) (hkind : delta.kind = block.kind) :
    ∃ before, AllStopped before ∧ (stopOpenBlocksAndAdvance info).1.index = before.length ∧
      read (.message bs) ((stopOpenBlocksAndAdvance info).2 ++
        [.contentBlockStart (stopOpenBlocksAndAdvance info).1.index block,
          .contentBlockDelta (stopOpenBlocksAndAdvance info).1.index delta]) =
        some (.message (before ++ [(block.kind, true)])) := by
  obtain ⟨before, hread, hstopped, hindex⟩ := h
  refine ⟨before, hstopped, hindex, ?_⟩
  have hget : (before ++ [(block.kind, true)])[before.length]? = some (delta.kind, true) := by simp [hkind]
  rw [stopOpenBlocksAndAdvance_snd, read_append_of hread, hindex, read_start, read_delta hget, read_nil]

inductive IsProse : LastMessageType → Block → BlockDelta → Prop where
  | text (s : String) : IsProse .text .text (.textDelta s)
  | thinking (s : String) : IsProse .thinking .thinking (.thinkingDelta s)

theorem IsProse.kind {delta : BlockDelta} (h : IsProse type block delta) : delta.kind = block.kind := by cases h <;> rfl

theorem IsProse.follows {delta : BlockDelta} (hprose : IsProse type block delta) (hbefore : AllStopped before)
    (hindex : info.index = before.length) (hphase : phase = .before ∧ n = 0 ∨ phase = .over ∧ 0 < n) :
    Follows { info with lastMessagesType := type } (before ++ [(block.kind, true)]) n phase := by
  cases hprose with
  | text s => exact .prose (.inl ⟨rfl, rfl⟩) hbefore hindex hphase
  | thinking s => exact .prose (.inr ⟨rfl, rfl⟩) hbefore hindex hphase

theorem proseDelta_follows {delta : BlockDelta} (hprose : IsProse type block delta) (h : Follows info bs n phase) :
    ∃ bs', read (.message bs) (proseDelta type block delta info).2 = some (.message bs') ∧
      Follows (proseDelta type block delta info).1 bs' n phase.afterProse := by
  unfold proseDelta
  split
  · rename_i htype
    -- the block of this kind is open already
    have hafter := h.afterProse
    cases h with
    | start hlast => cases hprose <;> simp [hlast] at htype
    | tools hlast => cases hprose <;> simp [hlast] at htype
    | @prose before n phase kind hlast hbefore hindex hphase =>
      have hkind : delta.kind = kind := by
        obtain ⟨hlast, rfl⟩ | ⟨hlast, rfl⟩ := hlast <;> cases hprose <;> simp [hlast] at htype <;> rfl
      have hget : (before ++ [(kind, true)])[info.index]? = some (delta.kind, true) := by simp [hindex, hkind]
      exact ⟨_, read_delta hget [], .prose hlast hbefore hindex hafter⟩
  · obtain ⟨before, hstopped, hindex, hread⟩ := read_newProse h.settles block delta hprose.kind
    exact ⟨_, hread, hprose.follows hstopped hindex h.afterProse⟩

/-- The reader is stuck, or will be when the blocks are stopped. -/
def Fails (info : ConvertInfo) (n : ℕ) (r : Option Reader) : Prop :=
  r = none ∨ ∃ bs, r = some (.message bs) ∧ Doomed info bs n

theorem toolDeltas_tools (hlast : info.lastMessagesType = .tools) (calls : List ToolCallResponse) : toolDeltas calls info =
      ({ info with
          toolCallMaxIndexOffset :=
            (toolCallLoop info.toolCallBaseIndex info.toolCallMaxIndexOffset calls.zipIdx).1
          index := info.toolCallBaseIndex +
            (toolCallLoop info.toolCallBaseIndex info.toolCallMaxIndexOffset calls.zipIdx).1 },
        (toolCallLoop info.toolCallBaseIndex info.toolCallMaxIndexOffset calls.zipIdx).2) := by
  obtain ⟨last, index, usage, finishReason, done, base, maxOffset⟩ := info
  subst hlast
  rfl

theorem toolDeltas_other (hlast : info.lastMessagesType ≠ .tools) (calls : List ToolCallResponse) :
    (toolDeltas calls info).1.lastMessagesType = .tools ∧
      (toolDeltas calls info).1.toolCallBaseIndex = (stopOpenBlocksAndAdvance info).1.index ∧
      (toolDeltas calls info).1.toolCallMaxIndexOffset =
        (toolCallLoop (stopOpenBlocksAndAdvance info).1.index 0 calls.zipIdx).1 ∧
      (toolDeltas calls info).2 =
        stopOpenBlocks info ++ (toolCallLoop (stopOpenBlocksAndAdvance info).1.index 0 calls.zipIdx).2 := by
  unfold toolDeltas
  rw [if_neg hlast, ← stopOpenBlocksAndAdvance_snd]
  exact ⟨rfl, rfl, rfl, rfl⟩

theorem Doomed.toolDeltas (h : Doomed info bs n) (hcalls : calls.foldlM introduce n = some n') :
    Fails (toolDeltas calls info).1 n' (read (.message bs) (toolDeltas calls info).2) := by
  obtain ⟨hmax, hread⟩ := @loop_doomed bs info.toolCallBaseIndex info.toolCallMaxIndexOffset n n' calls 0 h.late hcalls
  have hle := introduce_le hcalls
  have hshort := h.short
  have hlate := h.late
  rw [toolDeltas_tools h.last]
  refine hread.imp id fun hread => ⟨bs, hread, h.last, ?_, ?_⟩
  · change bs.length ≤ info.toolCallBaseIndex + (toolCallLoop _ _ _).1
    omega
  · change bs.length < info.toolCallBaseIndex + n'
    omega

variable {delta : Delta}

theorem Doomed.deltaEvents (h : Doomed info bs n) (hcalls : introduceAll n delta = some n') :
    Fails (deltaEvents delta info).1 n' (read (.message bs) (deltaEvents delta info).2) := by
  have hprose : ∀ {type block d}, IsProse type block d → (read (.message bs) (proseDelta type block d info).2) = none := by
    intro type block d hprose
    have hne : info.lastMessagesType ≠ type := by cases hprose <;> simp [h.last]
    unfold proseDelta
    rw [if_neg hne]
    dsimp only
    rw [stopOpenBlocksAndAdvance_snd]
    exact read_append_none h.stops _
  unfold HotAI.Stream.deltaEvents
  split
  · exact h.toolDeltas hcalls
  · rename_i hnil
    rw [introduceAll, not_not.mp hnil] at hcalls
    obtain rfl := Option.some.inj hcalls
    split
    · exact .inl (hprose (.thinking _))
    · split
      · exact .inl (hprose (.text _))
      · exact .inr ⟨bs, rfl, h⟩

theorem toolDeltas_opens (hsettles : Settles info bs) (hlast : info.lastMessagesType ≠ .tools) (hne : calls ≠ [])
    (hcalls : calls.foldlM introduce 0 = some n') :
    ∃ bs', read (.message bs) (toolDeltas calls info).2 = some (.message bs') ∧
      Follows (toolDeltas calls info).1 bs' n' (.run false) := by
  obtain ⟨before, hread, hstopped, hindex⟩ := hsettles
  obtain ⟨hlast', hbase, hmax, hevents⟩ := toolDeltas_other hlast calls
  obtain ⟨hloop, hloopRead⟩ := loop_follows before 0 hcalls
  have hpos := introduce_pos hne hcalls
  rw [hindex] at hbase hmax hevents
  have hn : n' = (toolDeltas calls info).1.toolCallMaxIndexOffset + 1 := by
    rw [hmax]
    change n' = (toolCallLoop before.length (0 - 1) (calls.zipIdx 0)).1 + 1
    omega
  have hfollows := Follows.tools hlast' hstopped hbase (.inl ⟨rfl, hn⟩)
  rw [← hn] at hfollows
  rw [replicate_zero, append_nil] at hloopRead
  exact ⟨_, by rw [hevents, read_append_of hread]; exact hloopRead, hfollows⟩

theorem toolDeltas_reopens (hsettles : Settles info bs) (hlast : info.lastMessagesType ≠ .tools) (hn : 0 < n)
    (hcalls : calls.foldlM introduce n = some n') :
    Fails (toolDeltas calls info).1 n' (read (.message bs) (toolDeltas calls info).2) := by
  obtain ⟨before, hread, -, hindex⟩ := hsettles
  obtain ⟨hlast', hbase, -, hevents⟩ := toolDeltas_other hlast calls
  rw [hindex] at hbase hevents
  have hlate : before.length < before.length + n := by omega
  obtain ⟨-, hloop⟩ := @loop_doomed before before.length 0 n n' calls 0 hlate hcalls
  have hle := introduce_le hcalls
  rw [hevents, read_append_of hread]
  exact hloop.imp id fun hloop => ⟨before, hloop, hlast', by omega, by omega⟩

theorem toolDeltas_next (h : Follows info bs n phase) (hne : delta.toolCalls ≠ []) (hcalls : introduceAll n delta = some n') :
    match phase.next delta with
    | some phase' => ∃ bs', read (.message bs) (toolDeltas delta.toolCalls info).2 = some (.message bs') ∧
        Follows (toolDeltas delta.toolCalls info).1 bs' n' phase'
    | none => Fails (toolDeltas delta.toolCalls info).1 n' (read (.message bs) (toolDeltas delta.toolCalls info).2) := by
  have hsettles := h.settles
  rw [Phase.next, if_pos hne]
  cases h with
  | start hlast => exact toolDeltas_opens hsettles (by simp [hlast]) hne hcalls
  | prose hlast hbefore hindex hphase =>
    have hlast' : info.lastMessagesType ≠ .tools := by obtain ⟨h, -⟩ | ⟨h, -⟩ := hlast <;> simp [h]
    obtain ⟨rfl, rfl⟩ | ⟨rfl, hn⟩ := hphase
    · exact toolDeltas_opens hsettles hlast' hne hcalls
    · exact toolDeltas_reopens hsettles hlast' hn hcalls
  | @tools before n phase hlast hbefore hbase hphase =>
    rw [toolDeltas_tools hlast]
    obtain ⟨rfl, rfl⟩ | ⟨rfl, hmax, hn⟩ := hphase
    · obtain ⟨hloop, hread⟩ := loop_follows before 0 hcalls
      rw [Nat.add_sub_cancel, ← hbase] at hloop hread
      have hpos := introduce_pos hne hcalls
      refine ⟨_, hread, ?_⟩
      have hn' : n' = (toolCallLoop info.toolCallBaseIndex info.toolCallMaxIndexOffset delta.toolCalls.zipIdx).1 + 1 := by
        omega
      rw [hn']
      exact .tools hlast hbefore hbase (.inl ⟨rfl, rfl⟩)
    · obtain ⟨last, index, usage, finishReason, done, base, maxOffset⟩ := info
      subst hlast hbase hmax
      rw [Phase.afterTools]
      by_cases hall : ∀ call ∈ delta.toolCalls, call.index = some 0
      · rw [if_pos (by simpa using hall)]
        obtain ⟨rfl, hloop, hread⟩ := loop_capped before 0 hn hall hcalls
        refine ⟨before ++ [(Kind.tool, true)], hread, ?_⟩
        rw [hloop]
        exact @Follows.tools ⟨.tools, before.length + 0, usage, finishReason, done, before.length, 0⟩ before n'
          (.run true) rfl hbefore rfl (.inr ⟨rfl, rfl, hn⟩)
      · rw [if_neg (by simpa using hall)]
        have hle := introduce_le hcalls
        refine (loop_capped_fails before 0 hn hall hcalls).imp id fun ⟨hread, hmax'⟩ =>
          ⟨before ++ [(Kind.tool, true)], hread, rfl, ?_, ?_⟩
        · rw [length_append]
          exact Nat.add_le_add_left hmax' _
        · rw [length_append]
          exact Nat.add_lt_add_left (hn.trans_le hle) _

theorem deltaEvents_follows {phase' : Phase} (h : Follows info bs n phase) (hcalls : introduceAll n delta = some n')
    (hnext : phase.next delta = some phase') :
    ∃ bs', read (.message bs) (deltaEvents delta info).2 = some (.message bs') ∧
      Follows (deltaEvents delta info).1 bs' n' phase' := by
  unfold deltaEvents
  split
  · rename_i hne
    have htools := toolDeltas_next h hne hcalls
    rw [hnext] at htools
    exact htools
  · rename_i hnil
    rw [introduceAll, not_not.mp hnil] at hcalls
    obtain rfl := Option.some.inj hcalls
    rw [Phase.next, if_neg hnil] at hnext
    have hprose : delta.hasProse = true → phase' = phase.afterProse := by
      intro hprose
      rw [if_pos hprose] at hnext
      exact (Option.some.inj hnext).symm
    split
    · rename_i hreasoning
      rw [hprose (by simp [Delta.hasProse, hreasoning])]
      exact proseDelta_follows (.thinking _) h
    · split
      · rename_i hcontent
        rw [hprose (by simp [Delta.hasProse, hcontent])]
        exact proseDelta_follows (.text _) h
      · have hempty : ¬ delta.hasProse = true := by simp_all [Delta.hasProse]
        rw [if_neg hempty] at hnext
        obtain rfl := Option.some.inj hnext
        exact ⟨bs, rfl, h⟩

theorem deltaEvents_fails (h : Follows info bs n phase)
    (hcalls : introduceAll n delta = some n') (hnext : phase.next delta = none) :
    Fails (deltaEvents delta info).1 n' (read (.message bs) (deltaEvents delta info).2) := by
  have hne : delta.toolCalls ≠ [] := by
    intro hnil
    rw [Phase.next, if_neg (not_not.mpr hnil)] at hnext
    split at hnext <;> cases hnext
  unfold deltaEvents
  rw [if_pos hne]
  have htools := toolDeltas_next h hne hcalls
  rw [hnext] at htools
  exact htools

end HotAI.Stream
