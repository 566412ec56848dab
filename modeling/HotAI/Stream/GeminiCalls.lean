import HotAI.Stream.GeminiStream

/-! # The calls of a Gemini stream, and what is right of an answer -/
namespace HotAI.GeminiUpstream
open HotAI.Lib HotAI.Stream List

variable (uuids : Uuids)

/-! ## Calls with the next indices -/

def calledFunction (call : AggregatedCall) : FunctionCall := ⟨call.name, call.arguments⟩

variable (base made : ℕ)

theorem indices_numberedCalls (cs : List FunctionCall) :
    (numberedCalls uuids base made cs).map (fun delta => delta.begins.index) = List.range' base cs.length := by
  induction cs generalizing base made with
  | nil => rfl
  | cons call cs ih =>
    rw [numberedCalls, map_cons, ih, length_cons]
    rfl

theorem called_numberedCalls (cs : List FunctionCall) :
    (numberedCalls uuids base made cs).map (fun delta => calledFunction delta.begins) = cs := by
  induction cs generalizing base made with
  | nil => rfl
  | cons call cs ih =>
    rw [numberedCalls, map_cons, ih]
    rfl

variable {cs : List FunctionCall}

theorem id_numberedCalls {base made : ℕ} {delta : ToolCallResponse}
    (h : delta ∈ numberedCalls uuids base made cs) : delta.id ≠ "" := by
  induction cs generalizing base made with
  | nil => exact absurd h not_mem_nil
  | cons call cs ih =>
    rcases mem_cons.mp h with hsame | hlater
    · rw [hsame]
      exact callId_ne_empty uuids made
    · exact ih hlater

structure CallsTold (cs : List FunctionCall) (aggregated : List AggregatedCall) : Prop where
  indices : aggregated.map AggregatedCall.index = List.range cs.length
  functions : aggregated.map calledFunction = cs
  ids : ∀ call ∈ aggregated, call.id ≠ ""

theorem CallsTold.nil : CallsTold [] [] := ⟨rfl, rfl, fun _ h => absurd h not_mem_nil⟩

theorem CallsTold.append {cs : List FunctionCall} {aggregated : List AggregatedCall} (h : CallsTold cs aggregated) (made : ℕ)
    (ds : List FunctionCall) :
    CallsTold (cs ++ ds) (aggregateCalls aggregated (numberedCalls uuids cs.length made ds)) := by
  have hindices := indices_numberedCalls uuids cs.length made ds
  have hnew : ∀ delta ∈ numberedCalls uuids cs.length made ds, delta.begins.index ∉ aggregated.map AggregatedCall.index := by
    intro delta hdelta hold
    have hat : delta.begins.index ∈ range' cs.length ds.length := by
      rw [← hindices]
      exact mem_map_of_mem hdelta
    rw [h.indices, mem_range] at hold
    rw [mem_range'_1] at hat
    omega
  rw [aggregateCalls_nodup (by rw [hindices]; exact nodup_range') hnew]
  refine ⟨?_, ?_, ?_⟩
  · have hbegun : ((numberedCalls uuids cs.length made ds).map ToolCallResponse.begins).map AggregatedCall.index =
        range' cs.length ds.length := by
      rw [map_map]
      exact hindices
    rw [map_append, h.indices, hbegun, length_append, range_eq_range', range_eq_range',
      ← range'_append_1, Nat.zero_add]
  · have hbegun : ((numberedCalls uuids cs.length made ds).map ToolCallResponse.begins).map calledFunction = ds := by
      rw [map_map]
      exact called_numberedCalls uuids cs.length made ds
    rw [map_append, h.functions, hbegun]
  · intro call hcall
    rcases mem_append.mp hcall with hold | hbegun
    · exact h.ids call hold
    · obtain ⟨delta, hdelta, rfl⟩ := mem_map.mp hbegun
      exact id_numberedCalls uuids hdelta

/-! ## The deltas of one choice -/

def callDeltas (choices : List Choice) : List ToolCallResponse := choices.flatMap fun choice => choice.delta.toolCalls

def deltasFor (k : ℕ) (choices : List Choice) : List ToolCallResponse := callDeltas (choices.filter fun choice => choice.index = k)

theorem deltasFor_append (k : ℕ) (cs ds : List Choice) : deltasFor k (cs ++ ds) = deltasFor k cs ++ deltasFor k ds := by
  rw [deltasFor, filter_append, callDeltas, flatMap_append]
  rfl

theorem deltasFor_cons (k : ℕ) (choice : Choice) (choices : List Choice) :
    deltasFor k (choice :: choices) = (if choice.index = k then choice.delta.toolCalls else []) ++ deltasFor k choices :=
  flatMap_filter_cons ..

theorem deltasFor_numberedChoices_cons (k : ℕ) (next : ℕ → ℕ) (made : ℕ) (entry : Candidate) (entries : List Candidate) :
    deltasFor k (numberedChoices uuids next made (entry :: entries)) =
      (if entry.index = k then numberedCalls uuids (next k) made (calls entry.parts) else []) ++
        deltasFor k (numberedChoices uuids (countCalls next entry) (made + (calls entry.parts).length) entries) := by
  rw [numberedChoices, deltasFor_cons]
  refine congrArg (· ++ _) ?_
  have hindex : (numberedChoice uuids next made entry).index = entry.index := rfl
  rw [hindex]
  split
  · rename_i hk
    rw [← hk]
    rfl
  · rfl

variable {k : ℕ} {next : ℕ → ℕ} {entry : Candidate}

theorem countCalls_other (h : entry.index ≠ k) : countCalls next entry k = next k :=
  if_neg (Ne.symm h)

theorem countCalls_same (h : entry.index = k) :
    countCalls next entry k = next k + (calls entry.parts).length := if_pos h.symm

theorem CallsTold.entries {aggregated : List AggregatedCall} (h : CallsTold cs aggregated)
    (hnext : next k = cs.length) (made : ℕ) (entries : List Candidate) :
    CallsTold (cs ++ calls (partsOf k entries))
      (aggregateCalls aggregated (deltasFor k (numberedChoices uuids next made entries))) := by
  induction entries generalizing cs aggregated next made with
  | nil =>
    have hnone : calls (partsOf k []) = [] := rfl
    rw [hnone, append_nil]
    exact h
  | cons entry entries ih =>
    rw [partsOf_cons, calls_append, deltasFor_numberedChoices_cons, aggregateCalls_append, ← append_assoc]
    by_cases hk : entry.index = k
    · rw [if_pos hk, if_pos hk, hnext]
      refine ih (h.append uuids made (calls entry.parts)) ?_ _
      rw [countCalls_same hk, hnext, length_append]
    · have hnone : calls [] = [] := rfl
      rw [if_neg hk, if_neg hk, hnone, append_nil]
      exact ih h ((countCalls_other hk).trans hnext) _

theorem indices_deltasFor (k : ℕ) (next : ℕ → ℕ) (made : ℕ) (entries : List Candidate) :
    (deltasFor k (numberedChoices uuids next made entries)).map (fun delta => delta.begins.index) =
      List.range' (next k) (calls (partsOf k entries)).length := by
  induction entries generalizing next made with
  | nil => rfl
  | cons entry entries ih =>
    rw [partsOf_cons, calls_append, deltasFor_numberedChoices_cons, map_append, ih, length_append]
    by_cases hk : entry.index = k
    · rw [if_pos hk, if_pos hk, indices_numberedCalls, countCalls_same hk, range'_append_1]
    · have hnone : calls [] = [] := rfl
      rw [if_neg hk, if_neg hk, countCalls_other hk, hnone, length_nil, Nat.zero_add]
      rfl

variable {entries : List Candidate}

def announce (tool : ToolCallResponse) : ToolCallResponse := { tool with function := ⟨tool.function.name, ""⟩ }

def clear (tool : ToolCallResponse) : ToolCallResponse := ⟨tool.index, "", ⟨"", tool.function.arguments⟩⟩

theorem deltasFor_clearCalls (k : ℕ) (choices : List Choice) :
    deltasFor k (choices.map clearCalls) = (deltasFor k choices).map clear := by
  induction choices with
  | nil => rfl
  | cons choice choices ih =>
    rw [map_cons, deltasFor_cons, ih, deltasFor_cons, map_append]
    refine congrArg (· ++ _) ?_
    have hindex : (clearCalls choice).index = choice.index := rfl
    rw [hindex]
    split <;> rfl

theorem deltasFor_unfinishFirst (k : ℕ) (choices : List Choice) : deltasFor k (unfinishFirst choices) = deltasFor k choices := by
  cases choices with
  | nil => rfl
  | cons first rest => rw [unfinishFirst, deltasFor_cons, deltasFor_cons]

theorem deltasFor_firstResponses {first : Choice} {rest : List Choice} (h : isToolCall (first :: rest) = true) (k : ℕ) :
    deltasFor k (firstResponses (first :: rest)) =
      (if 0 = k then first.delta.toolCalls.map announce else []) ++ (deltasFor k (first :: rest)).map clear := by
  have hcleared : clearToolCalls (first :: rest) = (first :: rest).map clearCalls := if_pos h
  rw [firstResponses, if_pos h]
  rw [deltasFor_cons, hcleared]
  refine congrArg₂ (· ++ ·) rfl ?_
  split
  · rw [deltasFor_unfinishFirst, deltasFor_clearCalls]
  · exact deltasFor_clearCalls k _

theorem indices_aggregateCalls (calls : List AggregatedCall) (deltas : List ToolCallResponse) (i : ℕ) :
    i ∈ (aggregateCalls calls deltas).map AggregatedCall.index ↔
      i ∈ calls.map AggregatedCall.index ∨ i ∈ deltas.map fun delta => delta.begins.index := by
  induction deltas generalizing calls with
  | nil => exact (or_iff_left not_mem_nil).symm
  | cons delta deltas ih =>
    rw [aggregateCalls, foldl_cons, ← aggregateCalls, ih, indices_aggregateCall, map_cons, mem_cons, or_assoc]

variable {deltas : List ToolCallResponse}

theorem mem_aggregateCalls {calls : List AggregatedCall} {call : AggregatedCall} (hcall : call ∈ calls)
    (h : ∀ delta ∈ deltas, delta.begins.index ≠ call.index) :
    call ∈ aggregateCalls calls deltas := by
  induction deltas generalizing calls with
  | nil => exact hcall
  | cons delta deltas ih =>
    obtain ⟨hdelta, hdeltas⟩ := forall_mem_cons.mp h
    refine ih ?_ hdeltas
    unfold aggregateCall
    split
    · exact mem_map.mpr ⟨call, hcall, if_neg (Ne.symm hdelta)⟩
    · exact mem_append_left _ hcall

theorem unnamed_stays {calls : List AggregatedCall} {i : ℕ} (hcall : ∃ call ∈ calls, call.index = i ∧ call.id = "")
    (h : ∀ delta ∈ deltas, delta.id = "") :
    ∃ call ∈ aggregateCalls calls deltas, call.index = i ∧ call.id = "" := by
  induction deltas generalizing calls with
  | nil => exact hcall
  | cons delta deltas ih =>
    obtain ⟨hdelta, hdeltas⟩ := forall_mem_cons.mp h
    refine ih ?_ hdeltas
    obtain ⟨call, hmem, hindex, hid⟩ := hcall
    unfold aggregateCall
    split
    · refine ⟨_, mem_map_of_mem hmem, ?_⟩
      split
      · exact ⟨hindex, (if_pos hid).trans hdelta⟩
      · exact ⟨hindex, hid⟩
    · exact ⟨call, mem_append_left _ hmem, hindex, hid⟩

theorem unnamed_begins {calls : List AggregatedCall} {i : ℕ} (hnew : i ∉ calls.map AggregatedCall.index)
    {deltas : List ToolCallResponse} (h : ∀ delta ∈ deltas, delta.id = "")
    (hi : i ∈ deltas.map fun delta => delta.begins.index) :
    ∃ call ∈ aggregateCalls calls deltas, call.index = i ∧ call.id = "" := by
  induction deltas generalizing calls with
  | nil => exact absurd hi not_mem_nil
  | cons delta deltas ih =>
    obtain ⟨hdelta, hdeltas⟩ := forall_mem_cons.mp h
    by_cases hthis : i = delta.begins.index
    · have hfirst : aggregateCall calls delta = calls ++ [delta.begins] := aggregateCall_new (hthis ▸ hnew)
      rw [aggregateCalls, foldl_cons, hfirst]
      exact unnamed_stays ⟨delta.begins, mem_append_right _ (mem_singleton_self _), hthis.symm, hdelta⟩ hdeltas
    · refine ih ?_ hdeltas ((mem_cons.mp hi).resolve_left hthis)
      rw [indices_aggregateCall]
      exact not_or.mpr ⟨hnew, hthis⟩

/-! ## Whole streams -/

def callsFor (chunks : List (List Candidate)) (k : ℕ) : List AggregatedCall := aggregateCalls [] (callDeltas (sentFor uuids chunks k))

/-- If the stream starts with a call, it is one of choice 0 and the first chunk has no other candidate with a call. -/
def FirstWhole (chunks : List (List Candidate)) : Prop :=
  ∀ first rest more, chunks = (first :: rest) :: more → calls first.parts ≠ [] →
    first.index = 0 ∧ ∀ entry ∈ rest, calls entry.parts = []

theorem callsFor_concat {chunks : List (List Candidate)} {chunk : List Candidate} (hplain : Plain (chunks ++ [chunk])) (k : ℕ) :
    callsFor uuids (chunks ++ [chunk]) k =
      aggregateCalls (callsFor uuids chunks k) (deltasFor k (chunkResponses uuids chunks chunk)) := by
  have hstop : deltasFor k (chunkStop chunks chunk) = [] := by
    unfold chunkStop
    split
    · rw [deltasFor_cons]
      exact congrArg (· ++ []) (ite_self _)
    · rfl
  have hdeltas : ∀ chunks, callsFor uuids chunks k = aggregateCalls [] (deltasFor k (geminiChatStreamHandler uuids chunks)) :=
    fun _ => rfl
  rw [hdeltas, hdeltas, sent_concat uuids hplain, deltasFor_append, deltasFor_append, hstop, append_nil,
    aggregateCalls_append]

theorem isToolCall_chunkChoices (chunks : List (List Candidate)) (chunk : List Candidate) :
    isToolCall (chunkChoices uuids chunks chunk) = startsWithCall chunk := isToolCall_numberedChoices uuids _ _ chunk

theorem deltasFor_first {first : Candidate} (hfirst : calls first.parts ≠ []) (rest : List Candidate) (k : ℕ) :
    deltasFor k (chunkResponses uuids [] (first :: rest)) =
      (if 0 = k then (numberedCalls uuids 0 0 (calls first.parts)).map announce else []) ++
        (deltasFor k (chunkChoices uuids [] (first :: rest))).map clear := by
  have hcalls : isToolCall (chunkChoices uuids [] (first :: rest)) = true := by
    rw [isToolCall_chunkChoices, startsWithCall, Bool.not_eq_true']
    exact isEmpty_eq_false_iff.mpr hfirst
  exact deltasFor_firstResponses hcalls k

variable {chunk : List Candidate} {chunks : List (List Candidate)}

theorem callsFor_later (hplain : Plain (chunks ++ [chunk])) (hlater : chunks ≠ []) (k : ℕ) :
    callsFor uuids (chunks ++ [chunk]) k = aggregateCalls (callsFor uuids chunks k) (deltasFor k (chunkChoices uuids chunks chunk)) := by
  rw [callsFor_concat uuids hplain, chunkResponses, if_neg hlater]

def Unnamed (chunks : List (List Candidate)) (k : ℕ) : Prop :=
  ∃ call ∈ callsFor uuids chunks k, call.index < (calls (partsOf k chunks.flatten)).length ∧ call.id = ""

theorem unnamed_first (hplain : Plain [chunk]) (h : ¬FirstWhole [chunk]) : ∃ k, Unnamed uuids [chunk] k := by
  unfold FirstWhole at h
  push Not at h
  obtain ⟨first, rest, more, hchunk, hfirst, hother⟩ := h
  obtain rfl := (cons.inj hchunk).1
  -- a call past those that are announced for its choice has no id
  have hbegins : ∀ k i, i < (calls (partsOf k (first :: rest))).length →
      i ∉ (if 0 = k then (numberedCalls uuids 0 0 (calls first.parts)).map announce else []).map
        (fun delta => delta.begins.index) → Unnamed uuids [first :: rest] k := by
    intro k i hi hnew
    have hsent : callsFor uuids [first :: rest] k = aggregateCalls (aggregateCalls []
        (if 0 = k then (numberedCalls uuids 0 0 (calls first.parts)).map announce else []))
          ((deltasFor k (chunkChoices uuids [] (first :: rest))).map clear) := by
      rw [← aggregateCalls_append, ← deltasFor_first uuids hfirst]
      exact @callsFor_concat uuids [] (first :: rest) hplain k
    have hindices : i ∈ ((deltasFor k (chunkChoices uuids [] (first :: rest))).map clear).map fun delta => delta.begins.index := by
      have hcleared : ((deltasFor k (chunkChoices uuids [] (first :: rest))).map clear).map (fun delta => delta.begins.index) =
          (deltasFor k (chunkChoices uuids [] (first :: rest))).map fun delta => delta.begins.index := by
        rw [map_map]
        rfl
      rw [hcleared, chunkChoices, indices_deltasFor, mem_range'_1]
      exact ⟨Nat.zero_le i, (Nat.zero_add _).symm ▸ hi⟩
    obtain ⟨call, hmem, hindex, hid⟩ := @unnamed_begins (aggregateCalls []
        (if 0 = k then (numberedCalls uuids 0 0 (calls first.parts)).map announce else [])) i
      (fun hold => hnew (((indices_aggregateCalls [] _ i).mp hold).resolve_left not_mem_nil))
      ((deltasFor k (chunkChoices uuids [] (first :: rest))).map clear)
      (fun delta hdelta => by obtain ⟨-, -, rfl⟩ := mem_map.mp hdelta; rfl) hindices
    refine ⟨call, hsent ▸ hmem, ?_, hid⟩
    rw [hindex, flatten_singleton]
    exact hi
  have hpositive : ∀ {entry : Candidate}, entry ∈ first :: rest → calls entry.parts ≠ [] →
      0 < (calls (partsOf entry.index (first :: rest))).length := by
    intro entry hentry hnonempty
    obtain ⟨before, after, hsplit⟩ := append_of_mem hentry
    rw [hsplit, partsOf_append, partsOf_cons, if_pos rfl, calls_append, calls_append, length_append, length_append]
    have := length_pos_iff.mpr hnonempty
    omega
  by_cases hzero : first.index = 0
  · obtain ⟨entry, hentry, hentryCalls⟩ := hother hzero
    by_cases hk : 0 = entry.index
    · refine ⟨0, hbegins 0 (calls first.parts).length ?_ ?_⟩
      · rw [partsOf_cons, if_pos hzero, calls_append, length_append]
        obtain ⟨before, after, hsplit⟩ := append_of_mem hentry
        rw [hsplit, partsOf_append, partsOf_cons, if_pos hk.symm, calls_append, calls_append, length_append,
          length_append]
        have := length_pos_iff.mpr hentryCalls
        omega
      · have hannounced : ((numberedCalls uuids 0 0 (calls first.parts)).map announce).map (fun delta => delta.begins.index) =
            range' 0 (calls first.parts).length := by
          rw [map_map]
          exact indices_numberedCalls uuids 0 0 (calls first.parts)
        rw [if_pos rfl, hannounced, mem_range'_1]
        omega
    · refine ⟨entry.index, hbegins entry.index 0 (hpositive (mem_cons_of_mem _ hentry) hentryCalls) ?_⟩
      rw [if_neg hk]
      exact not_mem_nil
  · refine ⟨first.index, hbegins first.index 0 (hpositive mem_cons_self hfirst) ?_⟩
    rw [if_neg (Ne.symm hzero)]
    exact not_mem_nil

theorem unnamed_later (hplain : Plain (chunks ++ [chunk]))
    (hlater : chunks ≠ []) (h : Unnamed uuids chunks k) : Unnamed uuids (chunks ++ [chunk]) k := by
  obtain ⟨hchunks, -⟩ := plain_concat hplain
  obtain ⟨call, hmem, hindex, hid⟩ := h
  refine ⟨call, ?_, ?_, hid⟩
  · rw [callsFor_later uuids hplain hlater]
    refine mem_aggregateCalls hmem fun delta hdelta => ?_
    have hat : delta.begins.index ∈ range' ((handled uuids chunks).indices.next k) (calls (partsOf k chunk)).length := by
      rw [← indices_deltasFor uuids k (handled uuids chunks).indices.next (handled uuids chunks).made chunk]
      exact mem_map_of_mem hdelta
    rw [mem_range'_1, (tracked uuids hchunks).next k] at hat
    omega
  · rw [flatten_append, partsOf_append, calls_append, length_append]
    omega

theorem unnamed (hplain : Plain chunks) (h : ¬FirstWhole chunks) : ∃ k, Unnamed uuids chunks k := by
  induction chunks using reverseRecOn with
  | nil =>
    refine absurd ?_ h
    intro first rest more heq
    cases heq
  | append_singleton chunks chunk ih =>
    obtain ⟨hchunks, -⟩ := plain_concat hplain
    by_cases hfirst : chunks = []
    · subst hfirst
      exact unnamed_first uuids hplain h
    · have hbefore : ¬FirstWhole chunks := by
        intro hwhole
        refine h ?_
        intro first rest more heq
        obtain ⟨head, tail, rfl⟩ := exists_cons_of_ne_nil hfirst
        obtain ⟨rfl, -⟩ := cons.inj heq
        exact hwhole first rest tail rfl
      obtain ⟨k, hk⟩ := ih hchunks hbefore
      exact ⟨k, unnamed_later uuids hplain hfirst hk⟩

/-! ## Answers -/

/-- An answer of thoughts, texts and function calls, and a stream of every candidate's parts in their order. -/
structure Answer where
  candidates : List Candidate
  chunks : List (List Candidate)
  plain : ∀ candidate ∈ candidates, candidate.Plain
  distributed : ∀ k, partsOf k chunks.flatten = partsOf k candidates

structure Answer.Fits (answer : Answer) : Prop where
  oneThought : ∀ candidate ∈ answer.candidates, OneThought candidate.parts
  callsLast : CallsLast answer.candidates
  unmixed : ∀ chunk ∈ answer.chunks, ∀ entry ∈ chunk, entry.Unmixed
  firstWhole : FirstWhole answer.chunks
  stopped : StopsAfterCall answer.chunks → calls (partsOf 0 answer.candidates) ≠ []

end HotAI.GeminiUpstream
