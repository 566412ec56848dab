import HotAI.Lib.GoStrings
import HotAI.Stream.Chunks

/-! # What a client makes of the tool calls of a chat stream

The deltas of a call have one index. The first of them tells its id and name, the arguments are the texts of all of them one
after the other; the calls stand in the order in which they begin. -/
namespace HotAI.Stream
open HotAI.Lib List

structure AggregatedCall where
  index : ℕ
  id : String
  name : String
  arguments : String
deriving DecidableEq, Repr

def ToolCallResponse.begins (delta : ToolCallResponse) : AggregatedCall :=
  ⟨delta.index.getD 0, delta.id, delta.function.name, delta.function.arguments⟩

def AggregatedCall.extend (call : AggregatedCall) (delta : ToolCallResponse) : AggregatedCall :=
  { call with
    id := if call.id = "" then delta.id else call.id
    name := if call.name = "" then delta.function.name else call.name
    arguments := call.arguments ++ delta.function.arguments }

def aggregateCall (calls : List AggregatedCall) (delta : ToolCallResponse) : List AggregatedCall :=
  if delta.begins.index ∈ calls.map AggregatedCall.index then
    calls.map fun call => if call.index = delta.begins.index then call.extend delta else call
  else calls ++ [delta.begins]

def aggregateCalls (calls : List AggregatedCall) (deltas : List ToolCallResponse) : List AggregatedCall :=
  deltas.foldl aggregateCall calls

theorem aggregateCalls_append (calls : List AggregatedCall) (ds es : List ToolCallResponse) :
    aggregateCalls calls (ds ++ es) = aggregateCalls (aggregateCalls calls ds) es := foldl_append

variable {calls : List AggregatedCall} {delta : ToolCallResponse}

theorem aggregateCall_new
    (h : delta.begins.index ∉ calls.map AggregatedCall.index) : aggregateCall calls delta = calls ++ [delta.begins] :=
  if_neg h

theorem length_aggregateCall_known
    (h : delta.begins.index ∈ calls.map AggregatedCall.index) : (aggregateCall calls delta).length = calls.length := by
  rw [aggregateCall, if_pos h, length_map]

theorem indices_aggregateCall (calls : List AggregatedCall) (delta : ToolCallResponse) (i : ℕ) :
    i ∈ (aggregateCall calls delta).map AggregatedCall.index ↔
      i ∈ calls.map AggregatedCall.index ∨ i = delta.begins.index := by
  by_cases h : delta.begins.index ∈ calls.map AggregatedCall.index
  · have hindices : (aggregateCall calls delta).map AggregatedCall.index = calls.map AggregatedCall.index := by
      rw [aggregateCall, if_pos h, map_map]
      refine map_congr_left fun call _ => ?_
      rw [Function.comp_apply]
      split <;> rfl
    rw [hindices]
    exact ⟨Or.inl, fun hi => hi.elim id fun hi => hi ▸ h⟩
  · rw [aggregateCall_new h, map_append, mem_append, map_singleton, mem_singleton]

theorem length_aggregateCalls (deltas : List ToolCallResponse) (calls : List AggregatedCall) :
    (aggregateCalls calls deltas).length ≤ calls.length + deltas.length ∧
      ((aggregateCalls calls deltas).length = calls.length + deltas.length →
        (deltas.map fun d => d.begins.index).Nodup ∧ ∀ d ∈ deltas, d.begins.index ∉ calls.map AggregatedCall.index) := by
  induction deltas generalizing calls with
  | nil => simp [aggregateCalls]
  | cons delta deltas ih =>
      obtain ⟨hle, heq⟩ := ih (aggregateCall calls delta)
      rw [aggregateCalls, foldl_cons, ← aggregateCalls, length_cons]
      by_cases h : delta.begins.index ∈ calls.map AggregatedCall.index
      · rw [length_aggregateCall_known h] at hle
        exact ⟨by omega, fun hlength => by omega⟩
      · have hlen : (aggregateCall calls delta).length = calls.length + 1 := by
          rw [aggregateCall_new h, length_append, length_singleton]
        refine ⟨by omega, fun hlength => ?_⟩
        obtain ⟨hnodup, hfresh⟩ := heq (by omega)
        have hother : ∀ d ∈ deltas, d.begins.index ∉ calls.map AggregatedCall.index ∧ d.begins.index ≠ delta.begins.index := by
          intro d hd
          have hd' := hfresh d hd
          rw [indices_aggregateCall] at hd'
          exact not_or.mp hd'
        constructor
        · rw [map_cons, nodup_cons]
          refine ⟨fun hmem => ?_, hnodup⟩
          obtain ⟨d, hd, hindex⟩ := mem_map.mp hmem
          exact (hother d hd).2 hindex
        · exact forall_mem_cons.mpr ⟨h, fun d hd => (hother d hd).1⟩

theorem aggregateCalls_nodup {deltas : List ToolCallResponse} (hnodup : (deltas.map fun d => d.begins.index).Nodup)
    (hfresh : ∀ d ∈ deltas, d.begins.index ∉ calls.map AggregatedCall.index) :
    aggregateCalls calls deltas = calls ++ deltas.map ToolCallResponse.begins := by
  induction deltas generalizing calls with
  | nil => rw [map_nil, append_nil]; rfl
  | cons delta deltas ih =>
      obtain ⟨hdelta, hdeltas⟩ := forall_mem_cons.mp hfresh
      rw [map_cons, nodup_cons] at hnodup
      rw [aggregateCalls, foldl_cons, ← aggregateCalls, ih hnodup.2, aggregateCall_new hdelta, map_cons,
        append_assoc, singleton_append]
      intro d hd
      rw [indices_aggregateCall, not_or]
      exact ⟨hdeltas d hd, fun heq => hnodup.1 (mem_map.mpr ⟨d, hd, heq⟩)⟩

theorem length_aggregateCalls_eq_iff (deltas : List ToolCallResponse) :
    (aggregateCalls [] deltas).length = deltas.length ↔ (deltas.map fun d => d.begins.index).Nodup := by
  constructor
  · intro hlength
    exact ((length_aggregateCalls deltas []).2 (by rw [hlength, length_nil, Nat.zero_add])).1
  · intro hnodup
    rw [aggregateCalls_nodup hnodup (fun d _ => not_mem_nil), nil_append, length_map]

theorem aggregateCalls_one (index : ℕ) (id name : String) (pieces : List String)
    (h : index ∉ calls.map AggregatedCall.index) :
    aggregateCalls calls (⟨some index, id, ⟨name, ""⟩⟩ :: pieces.map fun piece => ⟨some index, "", ⟨"", piece⟩⟩) =
      calls ++ [⟨index, id, name, joinMap (fun piece => piece) pieces⟩] := by
  rw [aggregateCalls, foldl_cons, aggregateCall_new h]
  suffices hpieces : ∀ arguments, (pieces.map fun piece => (⟨some index, "", ⟨"", piece⟩⟩ : ToolCallResponse)).foldl
      aggregateCall (calls ++ [⟨index, id, name, arguments⟩]) =
        calls ++ [⟨index, id, name, arguments ++ joinMap (fun piece => piece) pieces⟩] by
    exact (hpieces "").trans (by rw [String.empty_append])
  intro arguments
  induction pieces generalizing arguments with
  | nil => rw [joinMap, String.append_empty]; rfl
  | cons piece pieces ih =>
      have hcalls : ∀ call ∈ calls, (if call.index = index then
          call.extend ⟨some index, "", ⟨"", piece⟩⟩ else call) = call := by
        intro call hcall
        refine if_neg fun (hindex : call.index = index) => h ?_
        rw [← hindex]
        exact mem_map_of_mem hcall
      have hstep : aggregateCall (calls ++ [⟨index, id, name, arguments⟩]) ⟨some index, "", ⟨"", piece⟩⟩ =
          calls ++ [⟨index, id, name, arguments ++ piece⟩] := by
        rw [aggregateCall, if_pos (by simp [ToolCallResponse.begins]), map_append]
        congr 1
        · exact (map_congr_left hcalls).trans (map_id' calls)
        · simp [ToolCallResponse.begins, AggregatedCall.extend]
      rw [map_cons, foldl_cons, hstep, ih, joinMap, String.append_assoc]

/-! ## Messages -/

structure AggregatedMessage where
  content : String
  toolCalls : List AggregatedCall
  finishReason : Option String
deriving DecidableEq, Repr

def callDeltas (choices : List Choice) : List ToolCallResponse := choices.flatMap fun choice => choice.delta.toolCalls

def contentOf (choices : List Choice) : String := joinMap (fun choice => choice.delta.getContentString) choices

def aggregateMessage (choices : List Choice) : AggregatedMessage where
  content := contentOf choices
  toolCalls := aggregateCalls [] (callDeltas choices)
  finishReason := (choices.filterMap Choice.finishReason).getLast?

end HotAI.Stream
