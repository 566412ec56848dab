import HotAI.Stream.GeminiAnswer

/-! # Streams of Gemini

The handler gives every tool call the next index of its choice. The first chunk with tool calls is sent in two pieces: their
names under choice 0, and their arguments with the names taken off every choice. -/
namespace HotAI.GeminiUpstream
open HotAI.Lib HotAI.Stream List

variable (uuids : Uuids)

/-! ## What a chunk is converted to -/

def Candidate.Plain (entry : Candidate) : Prop := ∀ part ∈ entry.parts, part.plain = true

section Entry

variable {entry : Candidate} (hplain : entry.Plain) (made : ℕ)

include hplain

theorem deltaChoice_parts : DeltaParts uuids ⟨⟨[], 0⟩, [], false, false, made⟩ entry.parts
      (entry.parts.foldl (deltaPart uuids) ⟨⟨[], 0⟩, [], false, false, made⟩) := deltaParts uuids hplain _

theorem deltaChoice_made : (deltaChoice uuids made entry).2 = made + (calls entry.parts).length :=
  (deltaChoice_parts uuids hplain made).made

theorem deltaChoice_toolCalls : (deltaChoice uuids made entry).1.delta.toolCalls = numberedCalls uuids 0 made (calls entry.parts) :=
  (deltaChoice_parts uuids hplain made).toolCalls

end Entry

/-! ## The indices of the calls -/

theorem callId_ne_empty (n : ℕ) : uuids.callId n ≠ "" := by
  intro h
  have hlist := congrArg String.toList h
  rw [Uuids.callId, String.toList_append] at hlist
  exact cons_ne_nil _ _ hlist

theorem callId_injective : Function.Injective uuids.callId := fun _ _ h => uuids.injective ((String.append_right_inj _).mp h)

/-- Every id that has an index was made before. -/
def Fresh (indices : Indices) (made : ℕ) : Prop :=
  ∀ key id index, indices.byId key id = some index → ∃ n < made, id = uuids.callId n

def advance (next : ℕ → ℕ) (key count : ℕ) : ℕ → ℕ := fun k => if k = key then next k + count else next k

theorem assignTool_fresh {key made : ℕ} {indices : Indices} {tool : ToolCallResponse} (hfresh : Fresh uuids indices made)
    (hid : tool.id = uuids.callId made) :
    (assignTool key indices tool).2 = { tool with index := some (indices.next key) } ∧
      (assignTool key indices tool).1.next = advance indices.next key 1 ∧
      Fresh uuids (assignTool key indices tool).1 (made + 1) := by
  have hnew : indices.byId key tool.id = none := by
    cases hknown : indices.byId key tool.id with
    | none => rfl
    | some index =>
      obtain ⟨n, hn, hsame⟩ := hfresh key tool.id index hknown
      have heq : made = n := callId_injective uuids (hid.symm.trans hsame)
      omega
  have hne : tool.id ≠ "" := by
    rw [hid]
    exact callId_ne_empty uuids made
  unfold assignTool
  rw [if_neg hne, hnew]
  refine ⟨rfl, ?_, ?_⟩
  · funext k
    unfold advance
    dsimp only
    split
    · rename_i hk
      rw [hk]
    · rfl
  · intro k id index hindex
    dsimp only at hindex
    split at hindex
    · rename_i hsame
      exact ⟨made, Nat.lt_succ_self made, hsame.2.trans hid⟩
    · obtain ⟨n, hn, hsame⟩ := hfresh k id index hindex
      exact ⟨n, Nat.lt_succ_of_lt hn, hsame⟩

variable {entries : List Candidate} {choice : Choice} {chunk : List Candidate} {α : Type} {indices : Indices}

theorem assignTools_numbered (key : ℕ) (base : ℕ) {made : ℕ} (cs : List FunctionCall) (hfresh : Fresh uuids indices made) :
    (assignTools key indices (numberedCalls uuids base made cs)).2 = numberedCalls uuids (indices.next key) made cs ∧
      (assignTools key indices (numberedCalls uuids base made cs)).1.next = advance indices.next key cs.length ∧
      Fresh uuids (assignTools key indices (numberedCalls uuids base made cs)).1 (made + cs.length) := by
  induction cs generalizing indices base made with
  | nil =>
    refine ⟨rfl, ?_, hfresh⟩
    funext k
    exact (ite_self _).symm
  | cons call cs ih =>
    rw [numberedCalls, assignTools]
    obtain ⟨htool, hnext, hfirst⟩ := @assignTool_fresh uuids key made indices
      { getResponseToolCall uuids made call with index := some base } hfresh rfl
    obtain ⟨htools, hnexts, hfreshs⟩ := ih (base + 1) hfirst
    refine ⟨?_, ?_, ?_⟩
    · rw [htools, htool, hnext, numberedCalls, advance, if_pos rfl]
    · rw [hnexts, hnext]
      funext k
      unfold advance
      rw [length_cons]
      split
      · omega
      · rfl
    · rw [length_cons, Nat.add_comm cs.length 1, ← Nat.add_assoc]
      exact hfreshs

def numberedChoice (next : ℕ → ℕ) (made : ℕ) (entry : Candidate) : Choice :=
  let choice := (deltaChoice uuids made entry).1
  { choice with delta := { choice.delta with
      toolCalls := numberedCalls uuids (next entry.index) made (calls entry.parts) } }

def countCalls (next : ℕ → ℕ) (entry : Candidate) : ℕ → ℕ := advance next entry.index (calls entry.parts).length

def numberedChoices (next : ℕ → ℕ) (made : ℕ) : List Candidate → List Choice
  | [] => []
  | entry :: rest =>
      numberedChoice uuids next made entry :: numberedChoices (countCalls next entry) (made + (calls entry.parts).length) rest

theorem assignChoices_numbered (hplain : ∀ entry ∈ entries, entry.Plain) {made : ℕ} (hfresh : Fresh uuids indices made) :
    (assignChoices indices (deltaChoices uuids made entries).1).2 = numberedChoices uuids indices.next made entries ∧
      (assignChoices indices (deltaChoices uuids made entries).1).1.next = entries.foldl countCalls indices.next ∧
      Fresh uuids (assignChoices indices (deltaChoices uuids made entries).1).1 (deltaChoices uuids made entries).2 := by
  induction entries generalizing indices made with
  | nil => exact ⟨rfl, rfl, hfresh⟩
  | cons entry entries ih =>
    obtain ⟨hfirst, hrest⟩ := forall_mem_cons.mp hplain
    rw [deltaChoices, assignChoices, deltaChoice_toolCalls uuids hfirst, deltaChoice_made uuids hfirst, foldl_cons]
    obtain ⟨htools, hnext, hmade⟩ := assignTools_numbered uuids entry.index 0 (calls entry.parts) hfresh
    obtain ⟨hchoices, hnexts, hfreshs⟩ := ih hrest hmade
    refine ⟨?_, ?_, hfreshs⟩
    · refine congrArg₂ cons ?_ ?_
      · unfold numberedChoice
        rw [← htools]
        rfl
      · rw [← countCalls] at hnext
        rw [← hnext]
        exact hchoices
    · rw [← countCalls] at hnext
      rw [← hnext]
      exact hnexts

/-! ## The handler -/

def partsOf (k : ℕ) (entries : List Candidate) : List Part :=
  (entries.filter fun entry => entry.index = k).flatMap Candidate.parts

theorem partsOf_append (k : ℕ) (es fs : List Candidate) : partsOf k (es ++ fs) = partsOf k es ++ partsOf k fs := by
  rw [partsOf, filter_append, flatMap_append]
  rfl

theorem flatMap_filter_cons {α β : Type*} (index : α → ℕ) (f : α → List β) (k : ℕ) (a : α) (as : List α) :
    ((a :: as).filter (index · = k)).flatMap f = (if index a = k then f a else []) ++ (as.filter (index · = k)).flatMap f := by
  by_cases h : index a = k
  · rw [if_pos h, filter_cons, if_pos (by simpa using h), flatMap_cons]
  · rw [if_neg h, filter_cons, if_neg (by simpa using h), nil_append]

theorem partsOf_cons (k : ℕ) (entry : Candidate) (entries : List Candidate) :
    partsOf k (entry :: entries) = (if entry.index = k then entry.parts else []) ++ partsOf k entries :=
  flatMap_filter_cons ..

theorem foldl_countCalls (next : ℕ → ℕ) (entries : List Candidate) (k : ℕ) :
    entries.foldl countCalls next k = next k + (calls (partsOf k entries)).length := by
  induction entries generalizing next with
  | nil => rfl
  | cons entry entries ih =>
    rw [foldl_cons, ih, partsOf_cons, calls_append, length_append, countCalls, advance]
    by_cases h : k = entry.index
    · rw [if_pos h, if_pos h.symm, Nat.add_assoc]
    · have hnone : calls [] = [] := rfl
      rw [if_neg h, if_neg (Ne.symm h), hnone, length_nil, Nat.zero_add]

def startsWithCall : List Candidate → Bool
  | [] => false
  | first :: _ => !(calls first.parts).isEmpty

def stops (chunk : List Candidate) : Bool := chunk.any fun candidate => candidate.finishReason = some "STOP"

theorem isEmpty_numberedCalls (base made : ℕ) (cs : List FunctionCall) : (numberedCalls uuids base made cs).isEmpty = cs.isEmpty := by
  cases cs <;> rfl

theorem isToolCall_numberedChoices (next : ℕ → ℕ) (made : ℕ) (entries : List Candidate) :
    isToolCall (numberedChoices uuids next made entries) = startsWithCall entries := by
  cases entries with
  | nil => rfl
  | cons entry entries =>
    have htools : isToolCall (numberedChoices uuids next made (entry :: entries)) =
        !(numberedCalls uuids (next entry.index) made (calls entry.parts)).isEmpty := rfl
    rw [htools, isEmpty_numberedCalls, startsWithCall]

def handled (chunks : List (List Candidate)) : HandlerState := chunks.foldl (handleChunk uuids) HandlerState.init

theorem handled_concat (chunks : List (List Candidate)) (chunk : List Candidate) :
    handled uuids (chunks ++ [chunk]) = handleChunk uuids (handled uuids chunks) chunk := by
  rw [handled, foldl_append]
  rfl

structure Tracked (chunks : List (List Candidate)) (s : HandlerState) : Prop where
  count : s.sendResponseCount = 0 ↔ chunks = []
  finishReason : s.finishReason = if chunks.any startsWithCall then "tool_calls" else "stop"
  fresh : Fresh uuids s.indices s.made
  next : ∀ k, s.indices.next k = (calls (partsOf k chunks.flatten)).length

def Plain (chunks : List (List Candidate)) : Prop := ∀ chunk ∈ chunks, ∀ entry ∈ chunk, entry.Plain

variable {chunks : List (List Candidate)}

theorem plain_concat (h : Plain (chunks ++ [chunk])) : Plain chunks ∧ ∀ entry ∈ chunk, entry.Plain :=
  ⟨fun c hc => h c (mem_append_left _ hc), h chunk (mem_append_right _ (mem_singleton_self chunk))⟩

theorem tracked (hplain : Plain chunks) : Tracked uuids chunks (handled uuids chunks) := by
  induction chunks using reverseRecOn with
  | nil =>
    refine ⟨iff_of_true rfl rfl, rfl, ?_, fun k => rfl⟩
    intro key id index h
    cases h
  | append_singleton chunks chunk ih =>
    obtain ⟨hchunks, hchunk⟩ := plain_concat hplain
    obtain ⟨-, hfinish, hfresh, hnext⟩ := ih hchunks
    obtain ⟨hchoices, hcounted, hmade⟩ := assignChoices_numbered uuids hchunk hfresh
    rw [handled_concat]
    refine ⟨?_, ?_, hmade, ?_⟩
    · refine iff_of_false ?_ (append_ne_nil_of_right_ne_nil _ (cons_ne_nil _ _))
      unfold handleChunk
      dsimp only
      split <;> omega
    · unfold handleChunk streamResponseGeminiChat2OpenAI
      dsimp only
      rw [hchoices, isToolCall_numberedChoices, hfinish, any_append, any_cons, any_nil]
      cases startsWithCall chunk <;> cases chunks.any startsWithCall <;> rfl
    · intro k
      have hstep : (handleChunk uuids (handled uuids chunks) chunk).indices.next =
          chunk.foldl countCalls (handled uuids chunks).indices.next := hcounted
      rw [hstep, foldl_countCalls, hnext, flatten_append, partsOf_append, calls_append, length_append,
        flatten_singleton]

def chunkChoices (chunks : List (List Candidate)) (chunk : List Candidate) : List Choice :=
  numberedChoices uuids (handled uuids chunks).indices.next (handled uuids chunks).made chunk

def chunkResponses (chunks : List (List Candidate)) (chunk : List Candidate) : List Choice :=
  if chunks = [] then firstResponses (chunkChoices uuids chunks chunk) else chunkChoices uuids chunks chunk

def chunkStop (chunks : List (List Candidate)) (chunk : List Candidate) : List Choice :=
  if stops chunk then [stopChoice (if (chunks ++ [chunk]).any startsWithCall then "tool_calls" else "stop")] else []

theorem sent_concat (hplain : Plain (chunks ++ [chunk])) : geminiChatStreamHandler uuids (chunks ++ [chunk]) =
      geminiChatStreamHandler uuids chunks ++ chunkResponses uuids chunks chunk ++ chunkStop chunks chunk := by
  obtain ⟨hchunks, hchunk⟩ := plain_concat hplain
  have hbefore := tracked uuids hchunks
  have hafter := (tracked uuids hplain).finishReason
  obtain ⟨hchoices, -, -⟩ := assignChoices_numbered uuids hchunk hbefore.fresh
  rw [handled_concat] at hafter
  have hsent : geminiChatStreamHandler uuids (chunks ++ [chunk]) = (handleChunk uuids (handled uuids chunks) chunk).sent := by
    rw [← handled_concat]
    rfl
  rw [hsent, chunkStop, ← hafter, chunkResponses, ← if_congr hbefore.count rfl rfl, chunkChoices, ← hchoices]
  rfl

/-! ## Thoughts and texts -/

def blank : ℕ × List Char × List Char := (0, [], [])

variable (choices : List Choice)

def sentFor (chunks : List (List Candidate)) (k : ℕ) : List Choice :=
  (geminiChatStreamHandler uuids chunks).filter fun choice => choice.index = k

def contentOf (choices : List Choice) : List Letter := choices.flatMap (·.delta.getContentString)

def Candidate.Unmixed (entry : Candidate) : Prop := thoughts entry.parts ≠ [] → textChars entry.parts = []

def StopsAfterCall (chunks : List (List Candidate)) : Prop :=
  ∃ before chunk, before ++ [chunk] <+: chunks ∧ (before ++ [chunk]).any startsWithCall = true ∧ stops chunk = true

end HotAI.GeminiUpstream
