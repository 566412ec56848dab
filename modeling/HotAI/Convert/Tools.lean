import HotAI.Convert.Delivery

/-! # Every tool becomes a tool call of the client

A tool is sent when it is created, under an index of its own. So the client has as many tool calls as there are tools, one
for each key that ever named one. -/
namespace HotAI.Convert
open HotAI.Lib List Table

def keys (s : StreamState) : List Key := s.toolByKey.rows.map Tool.key

def indices (m : Collected) : List ℕ := m.pieces.rows.map Piece.index

structure Paired (s : StreamState) (m : Collected) : Prop where
  count : s.toolByKey.rows.length = s.nextToolIndex
  bound : ∀ tool ∈ s.toolByKey.rows, tool.index < s.nextToolIndex
  known : indices m = List.range s.nextToolIndex

/-- The same while a tool is being looked up: if it is new, the client will hear of it next. -/
structure Handled (s : StreamState) (m : Collected) (tool : Tool) : Prop where
  count : s.toolByKey.rows.length = s.nextToolIndex
  bound : ∀ tool ∈ s.toolByKey.rows, tool.index < s.nextToolIndex
  index : tool.index < s.nextToolIndex
  known : indices m = List.range s.nextToolIndex ∨
    tool.sent = false ∧ s.nextToolIndex = tool.index + 1 ∧ indices m = List.range tool.index

/-! ## The client's side -/

variable {m : Collected}

theorem indices_collect_known {index : ℕ} (id name arguments : String)
    (h : index ∈ indices m) : indices (m.collect (.toolCall index id name arguments)) = indices m := by
  obtain ⟨piece, hmem, rfl⟩ := mem_map.mp h
  simp only [Collected.collect, Table.get_of_mem hmem]
  unfold indices Table.put Table.update
  rw [map_map]
  refine map_congr_left fun old _ => ?_
  simp only [Function.comp_apply]
  split
  · next heq => exact heq.symm
  · rfl

theorem indices_collect_new {index : ℕ} (id name arguments : String)
    (h : index ∉ indices m) : indices (m.collect (.toolCall index id name arguments)) = indices m ++ [index] := by
  have hget : m.pieces.get index = none := by
    refine Option.eq_none_iff_forall_ne_some.mpr fun piece hpiece => h ?_
    obtain ⟨hmem, hindex⟩ := (get_eq_some_iff _ _ _).mp hpiece
    exact mem_map.mpr ⟨piece, hmem, hindex⟩
  simp only [Collected.collect, hget]
  unfold indices
  rw [rows_add hget, map_append, map_singleton]

def Chunk.isToolCall : Chunk → Bool
  | .toolCall _ _ _ _ => true
  | _ => false

variable {event : Event} {chunks : List Chunk}

theorem pieces_collectAll (h : ∀ chunk ∈ chunks, chunk.isToolCall = false) : (m.collectAll chunks).pieces = m.pieces := by
  induction chunks generalizing m with
  | nil => rfl
  | cons chunk chunks ih =>
    obtain ⟨hchunk, hrest⟩ := forall_mem_cons.mp h
    change ((m.collect chunk).collectAll chunks).pieces = _
    rw [ih hrest]
    cases chunk with
    | toolCall index id name arguments => cases hchunk
    | _ => rfl

theorem collectAll_append (m : Collected) (chunks more : List Chunk) :
    m.collectAll (chunks ++ more) = (m.collectAll chunks).collectAll more := foldl_append

/-! ## Sending a tool -/

/-- What the functions that send something keep: the pairing, and every key there was. -/
structure Sends (s : StreamState) (m : Collected) (result : Sent) : Prop where
  paired : Paired result.1 (m.collectAll result.2)
  grows : keys s ⊆ keys result.1

variable {s s' : StreamState} {tool : Tool}

theorem Sends.trans {first second : Sent} (h : Sends s m first)
    (h' : Sends first.1 (m.collectAll first.2) second) : Sends s m (second.1, first.2 ++ second.2) where
  paired := by
    rw [collectAll_append]
    exact h'.paired
  grows := List.Subset.trans h.grows h'.grows

theorem Paired.sends (h : Paired s m) (htools : s'.toolByKey = s.toolByKey) (hnext : s'.nextToolIndex = s.nextToolIndex)
    (hchunks : ∀ chunk ∈ chunks, chunk.isToolCall = false) : Sends s m (s', chunks) where
  paired := by
    constructor
    · rw [htools, hnext]
      exact h.count
    · rw [htools, hnext]
      exact h.bound
    · rw [indices, pieces_collectAll hchunks, hnext]
      exact h.known
  grows := by
    rw [keys, keys, htools]
    exact List.Subset.refl _

theorem ensureStart_spec (s : StreamState) : (ensureStart s).1 = { s with sentStart := true } ∧
    ((ensureStart s).2 = [] ∨ (ensureStart s).2 = [.start]) := by
  unfold ensureStart
  split
  · next h =>
    refine ⟨?_, .inl rfl⟩
    rw [← h]
  · exact ⟨rfl, .inr rfl⟩

theorem keys_put (s : StreamState) (tool : Tool) : (s.toolByKey.put tool).rows.map Tool.key = keys s := by
  unfold put update keys
  rw [map_map]
  refine map_congr_left fun old _ => ?_
  simp only [Function.comp_apply]
  split
  · next heq => exact heq.symm
  · rfl

theorem bound_put {n : ℕ} (h : ∀ old ∈ s.toolByKey.rows, old.index < n)
    (htool : tool.index < n) : ∀ old ∈ (s.toolByKey.put tool).rows, old.index < n := by
  intro old hold
  obtain ⟨before, hbefore, rfl⟩ := (mem_update old).mp hold
  split
  · exact htool
  · exact h before hbefore

theorem length_put (s : StreamState) (tool : Tool) :
    (s.toolByKey.put tool).rows.length = s.toolByKey.rows.length := length_map _

theorem toolDelta_cases (s : StreamState) (tool : Tool) (explicitDelta : String) :
    (tool.sent ∧ toolDelta s tool explicitDelta = ({ s with toolByKey := s.toolByKey.put tool }, [])) ∨
    ∃ start argsDelta, (start = [] ∨ start = [.start]) ∧
      toolDelta s tool explicitDelta =
        ({ s with sentStart := true, toolByKey := s.toolByKey.put (tool.afterSending argsDelta), sawToolCall := true },
          start ++ [tool.chunk argsDelta]) := by
  unfold toolDelta
  dsimp only
  split
  · next h => exact .inl ⟨h.1, rfl⟩
  · obtain ⟨hstate, hstart⟩ := ensureStart_spec s
    refine .inr ⟨(ensureStart s).2, tool.argsDelta explicitDelta, hstart, ?_⟩
    rw [hstate]

theorem toolDelta_sends (h : Handled s m tool) (explicitDelta : String) : Sends s m (toolDelta s tool explicitDelta) := by
  obtain ⟨hsent, heq⟩ | ⟨start, argsDelta, hstart, heq⟩ := toolDelta_cases s tool explicitDelta
  · rw [heq]
    refine ⟨⟨(length_put s tool).trans h.count, bound_put h.bound h.index, ?_⟩, ?_⟩
    · rcases h.known with hknown | ⟨hnew, -⟩
      · exact hknown
      · rw [hnew] at hsent
        cases hsent
    · exact (keys_put s tool).symm ▸ List.Subset.refl _
  · rw [heq]
    refine ⟨⟨(length_put s _).trans h.count, bound_put h.bound h.index, ?_⟩, ?_⟩
    · have hpieces : indices (m.collectAll start) = indices m := by
        rcases hstart with rfl | rfl <;> rfl
      rw [collectAll_append]
      change indices ((m.collectAll start).collect (tool.chunk argsDelta)) = _
      unfold Tool.chunk
      rcases h.known with hknown | ⟨-, hnext, hknown⟩
      · rw [indices_collect_known, hpieces, hknown]
        rw [hpieces, hknown]
        exact mem_range.mpr h.index
      · rw [indices_collect_new, hpieces, hknown, hnext, range_succ]
        rw [hpieces, hknown]
        exact not_mem_range_self
    · exact (keys_put s (tool.afterSending argsDelta)).symm ▸ List.Subset.refl _

/-! ## Looking a tool up -/

theorem Paired.handled (h : Paired s m) (htool : ∃ old ∈ s.toolByKey.rows, old.index = tool.index) : Handled s m tool := by
  obtain ⟨old, hold, hindex⟩ := htool
  exact ⟨h.count, h.bound, hindex ▸ h.bound old hold, .inl h.known⟩

theorem Handled.congr {tool' : Tool} (h : Handled s m tool)
    (htools : s'.toolByKey = s.toolByKey) (hnext : s'.nextToolIndex = s.nextToolIndex)
    (hindex : tool'.index = tool.index) (hsent : tool'.sent = tool.sent) : Handled s' m tool' := by
  obtain ⟨count, bound, index, known⟩ := h
  constructor
  · rw [htools, hnext]
    exact count
  · rw [htools, hnext]
    exact bound
  · rw [hindex, hnext]
    exact index
  · rw [hindex, hnext, hsent]
    exact known

structure Looked (s : StreamState) (m : Collected) (key : Key) (result : StreamState × Tool) : Prop where
  handled : Handled result.1 m result.2
  mem : key ∈ keys result.1
  grows : keys s ⊆ keys result.1

variable {key : Key}

theorem Looked.congr {result result' : StreamState × Tool}
    (h : Looked s m key result) (htools : result'.1.toolByKey = result.1.toolByKey)
    (hnext : result'.1.nextToolIndex = result.1.nextToolIndex)
    (hindex : result'.2.index = result.2.index) (hsent : result'.2.sent = result.2.sent) :
    Looked s m key result' := by
  have hkeys : keys result'.1 = keys result.1 := by rw [keys, keys, htools]
  exact ⟨h.handled.congr htools hnext hindex hsent, hkeys ▸ h.mem, hkeys ▸ h.grows⟩

theorem toolFor_looked (h : Paired s m) (key : Key) (callID : String) : Looked s m key (toolFor s key callID) := by
  unfold toolFor
  cases hget : s.toolByKey.get key with
  | some tool =>
    obtain ⟨hmem, hkey⟩ := (get_eq_some_iff _ _ _).mp hget
    exact ⟨h.handled ⟨tool, hmem, rfl⟩, mem_map.mpr ⟨tool, hmem, hkey⟩, List.Subset.refl _⟩
  | none =>
    have hrows : (s.toolByKey.add (Tool.fresh key s.nextToolIndex callID)).rows =
        s.toolByKey.rows ++ [Tool.fresh key s.nextToolIndex callID] := rows_add hget
    have hkeys : (s.toolByKey.add (Tool.fresh key s.nextToolIndex callID)).rows.map Tool.key = keys s ++ [key] := by
      rw [hrows, map_append]
      rfl
    refine ⟨⟨?_, ?_, Nat.lt_succ_self _, .inr ⟨rfl, rfl, h.known⟩⟩, ?_, ?_⟩
    · rw [hrows, length_append, length_singleton, h.count]
    · intro tool htool
      rw [hrows, mem_append, mem_singleton] at htool
      rcases htool with hold | rfl
      · exact (h.bound tool hold).trans (Nat.lt_succ_self _)
      · exact Nat.lt_succ_self _
    · change key ∈ (s.toolByKey.add _).rows.map Tool.key
      rw [hkeys]
      exact mem_append_right _ (mem_singleton.mpr rfl)
    · change keys s ⊆ (s.toolByKey.add _).rows.map Tool.key
      rw [hkeys]
      exact subset_append_left _ _

theorem linkOutputIndex_looked
    (h : Looked s m key (s', tool)) (index : Option ℤ) : Looked s m key (linkOutputIndex s' tool index) := by
  cases index with
  | none => exact h
  | some index => exact h.congr rfl rfl rfl rfl

theorem linkItemID_looked
    (h : Looked s m key (s', tool)) (itemID : String) : Looked s m key (linkItemID s' tool itemID) := by
  unfold linkItemID
  split
  · exact h
  · exact h.congr rfl rfl rfl rfl

theorem ensureToolForEvent_looked {item : Output}
    {result : StreamState × Tool} (h : Paired s m) (hkey : keyForEvent event = some key)
    (hresult : ensureToolForEvent s event item = some result) : Looked s m key result := by
  unfold ensureToolForEvent at hresult
  rw [hkey, Option.some_or] at hresult
  cases hresult
  exact (linkItemID_looked (linkOutputIndex_looked (toolFor_looked h key "") _) _).congr rfl rfl rfl rfl

theorem Looked.sends (h : Looked s m key (s', tool)) (explicitDelta : String) :
    Sends s m (toolDelta s' tool explicitDelta) ∧ key ∈ keys (toolDelta s' tool explicitDelta).1 := by
  obtain ⟨paired, grows⟩ := toolDelta_sends h.handled explicitDelta
  exact ⟨⟨paired, List.Subset.trans h.grows grows⟩, grows h.mem⟩

/-! ## The events -/

theorem toolItem_sends (h : Paired s m) (event : Event) (item : Output) (hkey : keyForEvent event = some key) :
    Sends s m (toolItem s event item) ∧ key ∈ keys (toolItem s event item).1 := by
  unfold toolItem
  cases hresult : ensureToolForEvent s event item with
  | none => simp [ensureToolForEvent, hkey] at hresult
  | some result =>
    obtain ⟨s', tool⟩ := result
    have hlooked := ensureToolForEvent_looked h hkey hresult
    have hstored : Looked s m key (s', { tool with
        arguments := if item.arguments ≠ "" then item.arguments else tool.arguments }) :=
      hlooked.congr rfl rfl rfl rfl
    exact hstored.sends ""

theorem toolItem_sends_any (h : Paired s m) (event : Event) (item : Output)
    (hitem : event.item = some item) : Sends s m (toolItem s event item) := by
  cases hkey : keyForEvent event with
  | some key => exact (toolItem_sends h event item hkey).1
  | none =>
    have hnone : ensureToolForEvent s event item = none := by
      obtain ⟨type, response, delta, item', index, itemID⟩ := event
      unfold keyForEvent at hkey
      unfold ensureToolForEvent keyForEvent fallbackToolKey
      cases index with
      | some index => cases hkey
      | none =>
        grind
    unfold toolItem
    rw [hnone]
    exact h.sends rfl rfl (by simp)

theorem findToolForEvent_mem (h : findToolForEvent s event = some tool) : tool ∈ s.toolByKey.rows := by
  obtain ⟨key, -, hget⟩ := Option.bind_eq_some_iff.mp h
  exact ((get_eq_some_iff _ _ _).mp hget).1

theorem toolArgumentsDelta_sends (h : Paired s m) (event : Event) : Sends s m (toolArgumentsDelta s event) := by
  unfold toolArgumentsDelta
  split
  · exact h.sends rfl rfl (by simp)
  split
  · next tool hfind =>
    refine toolDelta_sends (h.handled ⟨tool, findToolForEvent_mem hfind, ?_⟩) event.delta
    rfl
  split
  · exact h.sends rfl rfl (by simp)
  split
  · exact h.sends rfl rfl (by simp)
  · exact h.sends rfl rfl (by simp)

theorem flushPendingTool_sends (h : Paired s m) (event : Event) : Sends s m (flushPendingTool s event) := by
  unfold flushPendingTool
  split
  · next tool hfind => exact toolDelta_sends (h.handled ⟨tool, findToolForEvent_mem hfind, rfl⟩) ""
  split
  · exact h.sends rfl rfl (by simp)
  · next s' tool hfallback =>
    obtain ⟨key, -, hresult⟩ := Option.map_eq_some_iff.mp hfallback
    have hlooked := linkItemID_looked
      (linkOutputIndex_looked (toolFor_looked h key (fallbackCallID event)) event.outputIndex)
      (responseStreamEventItemID event)
    have hsame : Looked s m key (s', tool) := hresult ▸ hlooked
    exact (hsame.sends "").1

theorem ensureStart_noToolCall (s : StreamState) : ∀ chunk ∈ (ensureStart s).2, chunk.isToolCall = false := by
  rcases (ensureStart_spec s).2 with h | h <;> simp [h, Chunk.isToolCall]

theorem ensureStart_toolByKey (s : StreamState) : (ensureStart s).1.toolByKey = s.toolByKey := by
  rw [(ensureStart_spec s).1]

theorem ensureStart_nextToolIndex (s : StreamState) : (ensureStart s).1.nextToolIndex = s.nextToolIndex := by
  rw [(ensureStart_spec s).1]

section
variable (h : Paired s m)
include h

theorem ensureStart_sends : Sends s m (ensureStart s) :=
  h.sends (ensureStart_toolByKey s) (ensureStart_nextToolIndex s) (ensureStart_noToolCall s)

theorem textDelta_sends (delta : String) : Sends s m (textDelta s delta) := by
  unfold textDelta
  split
  · exact h.sends rfl rfl (by simp)
  · refine h.sends (ensureStart_toolByKey _) (ensureStart_nextToolIndex _) ?_
    exact forall_mem_append.mpr ⟨ensureStart_noToolCall _, by simp [Chunk.isToolCall]⟩

theorem reasoningDelta_sends (delta : String) : Sends s m (reasoningDelta s delta) := by
  unfold reasoningDelta
  split
  · exact h.sends rfl rfl (by simp)
  · refine h.sends (ensureStart_toolByKey _) (ensureStart_nextToolIndex _) ?_
    exact forall_mem_append.mpr ⟨ensureStart_noToolCall _, by simp [Chunk.isToolCall]⟩

theorem terminalItem_sends (out : Output) : Sends s m (terminalItem s out) := by
  unfold terminalItem
  split
  · exact textDelta_sends h _
  split
  · exact reasoningDelta_sends h _
  split
  · exact toolItem_sends_any h _ out rfl
  · exact h.sends rfl rfl (by simp)

theorem terminalItem_key {out : Output} (htool : isResponsesToolOutputType out.type) (hid : trimSpace out.id ≠ "") :
    Key.item (trimSpace out.id) ∈ keys (terminalItem s out).1 := by
  have htype : out.type ≠ "message" ∧ out.type ≠ "reasoning" := by
    constructor <;> intro heq <;> rw [heq] at htool <;> revert htool <;> decide
  have hkey : keyForEvent ⟨.other, none, "", some out, none, ""⟩ = some (Key.item (trimSpace out.id)) := by
    simp [keyForEvent, hid]
  unfold terminalItem
  rw [if_neg (fun hm => htype.1 hm.1), if_neg (fun hr => htype.2 hr.1), if_pos htool]
  exact (toolItem_sends h _ out hkey).2

theorem terminalOutputChunks_sends (output : List Output) : Sends s m (terminalOutputChunks s output) ∧
      ∀ out ∈ output, isResponsesToolOutputType out.type → trimSpace out.id ≠ "" →
        Key.item (trimSpace out.id) ∈ keys (terminalOutputChunks s output).1 := by
  induction output generalizing s m with
  | nil => exact ⟨h.sends rfl rfl (by simp), by simp⟩
  | cons out rest ih =>
    have hfirst := terminalItem_sends h out
    obtain ⟨hrest, hkeys⟩ := ih hfirst.paired
    refine ⟨hfirst.trans hrest, ?_⟩
    intro out' hmem htool hid
    rcases mem_cons.mp hmem with rfl | hmem
    · exact hrest.grows (terminalItem_key h htool hid)
    · exact hkeys out' hmem htool hid

end

theorem takePending_looked
    (h : Looked s m key (s', tool)) (pending : Key) : Looked s m key (takePending s' tool pending) := by
  cases pending with
  | output index => exact h.congr rfl rfl rfl rfl
  | item id => exact h.congr rfl rfl rfl rfl
  | call id => exact h

theorem flushKey_sends (h : Paired s m) (key : Key) : Sends s m (flushKey s key) :=
  ((takePending_looked (toolFor_looked h key (flushCallID key)) key).sends "").1

theorem flushAll_sends (h : Paired s m) (ks : List Key) : Sends s m (flushAll s ks) := by
  induction ks generalizing s m with
  | nil => exact h.sends rfl rfl (by simp)
  | cons key rest ih =>
    have hfirst := flushKey_sends h key
    exact hfirst.trans (ih hfirst.paired)

theorem finishChunks_noToolCall (s : StreamState) (response : Option Response) :
    ∀ chunk ∈ finishChunks s response, chunk.isToolCall = false := by
  unfold finishChunks
  cases s.includeUsage <;> simp [Chunk.isToolCall]

theorem finalize_sends (h : Paired s m) (response : Option Response) : Sends s m (finalize s response) := by
  unfold finalize
  split
  · exact h.sends rfl rfl (by simp)
  · have hopen : Paired { s with finalized := true } m := ⟨h.count, h.bound, h.known⟩
    have hflush := flushAll_sends hopen (flushKeys { s with finalized := true })
    have hstart := hflush.trans (ensureStart_sends hflush.paired)
    obtain ⟨paired, grows⟩ := hstart.trans (hstart.paired.sends rfl rfl (finishChunks_noToolCall _ response))
    exact ⟨paired, grows⟩

theorem terminal_sends (h : Paired s m) (response : Option Response) : Sends s m (terminal s response) ∧
      ∀ out ∈ (response.map Response.output).getD [], isResponsesToolOutputType out.type → trimSpace out.id ≠ "" →
        Key.item (trimSpace out.id) ∈ keys (terminal s response).1 := by
  obtain ⟨houtput, hkeys⟩ := terminalOutputChunks_sends h ((response.map Response.output).getD [])
  have hlast := finalize_sends houtput.paired response
  exact ⟨houtput.trans hlast, fun out hmem htool hid => hlast.grows (hkeys out hmem htool hid)⟩

def namedKeys (event : Event) : List Key :=
  match event.type, event.item with
  | .outputItemAdded, some item | .outputItemDone, some item =>
      if isResponsesToolOutputType item.type then (keyForEvent event).toList else []
  | .completed, _ | .done, _ =>
      ((((event.response.map Response.output).getD []).filter fun out =>
        isResponsesToolOutputType out.type && trimSpace out.id ≠ "").map fun out => .item (trimSpace out.id))
  | _, _ => []

def Event.isError (event : Event) : Prop := event.type = .failed ∨ event.type = .error

theorem outputItem_sends (h : Paired s m) (event : Event) :
    Sends s m (outputItem s event) ∧ ∀ item ∈ event.item, isResponsesToolOutputType item.type →
      ∀ key ∈ keyForEvent event, key ∈ keys (outputItem s event).1 := by
  unfold outputItem
  cases hitem : event.item with
  | none => exact ⟨h.sends rfl rfl (by simp), by simp⟩
  | some item =>
    dsimp only
    split
    · refine ⟨toolItem_sends_any h event item hitem, ?_⟩
      intro item' hitem' _ key hkey
      exact (toolItem_sends h event item hkey).2
    · next htool =>
      refine ⟨h.sends rfl rfl (by simp), ?_⟩
      intro item' hitem' htool'
      cases hitem'
      exact absurd htool' htool

theorem event_sends (h : Paired s m) (hok : ¬ event.isError) :
    ∃ result, responsesStreamEventToChatChunks s event = (result.1, .ok result.2) ∧ Sends s m result ∧
      ∀ key ∈ namedKeys event, key ∈ keys result.1 := by
  obtain ⟨type, response, delta, item, outputIndex, itemID⟩ := event
  unfold responsesStreamEventToChatChunks namedKeys
  have hnokeys : ∀ result : Sent, ∀ key ∈ ([] : List Key), key ∈ keys result.1 := by simp
  cases type with
  | created => exact ⟨_, rfl, ensureStart_sends h, hnokeys _⟩
  | completed | done =>
    obtain ⟨hsends, hkeys⟩ := terminal_sends h response
    refine ⟨_, rfl, hsends, fun key hkey => ?_⟩
    obtain ⟨out, hmem, rfl⟩ := mem_map.mp hkey
    obtain ⟨hmem, hout⟩ := mem_filter.mp hmem
    rw [Bool.and_eq_true, decide_eq_true_iff] at hout
    exact hkeys out hmem hout.1 hout.2
  | incomplete => exact ⟨_, rfl, (terminal_sends h _).1, hnokeys _⟩
  | failed => exact absurd (.inl rfl) hok
  | error => exact absurd (.inr rfl) hok
  | outputTextDelta => exact ⟨_, rfl, textDelta_sends h delta, hnokeys _⟩
  | outputItemAdded | outputItemDone =>
    obtain ⟨hsends, hkeys⟩ := outputItem_sends h ⟨_, response, delta, item, outputIndex, itemID⟩
    refine ⟨_, rfl, hsends, ?_⟩
    cases item with
    | none => exact hnokeys _
    | some item =>
      intro key hkey
      dsimp only at hkey
      split at hkey
      · next htool => exact hkeys item rfl htool key (Option.mem_toList.mp hkey)
      · cases hkey
  | functionArgsDelta | customToolInputDelta => exact ⟨_, rfl, toolArgumentsDelta_sends h _, hnokeys _⟩
  | functionArgsDone | customToolInputDone => exact ⟨_, rfl, flushPendingTool_sends h _, hnokeys _⟩
  | reasoningSummaryDelta | reasoningTextDelta => exact ⟨_, rfl, reasoningDelta_sends h delta, hnokeys _⟩
  | reasoningSummaryDone | reasoningTextDone => exact ⟨_, rfl, h.sends rfl rfl (by simp), hnokeys _⟩
  | other => exact ⟨(s, []), rfl, h.sends rfl rfl (by simp), hnokeys _⟩

/-! ## Whole streams -/

theorem paired_new (includeUsage : Bool) : Paired (newResponsesToChatStreamState includeUsage) Collected.none :=
  ⟨rfl, by simp [newResponsesToChatStreamState, empty], rfl⟩

theorem feed_all {events : List Event} (hok : ∀ event ∈ events, ¬ event.isError)
    (h : Paired s m) : ∃ s' m', events.foldlM feed (s, m) = .ok (s', m') ∧ Paired s' m' ∧ keys s ⊆ keys s' ∧
      ∀ event ∈ events, ∀ key ∈ namedKeys event, key ∈ keys s' := by
  induction events generalizing s m with
  | nil => exact ⟨s, m, rfl, h, List.Subset.refl _, by simp⟩
  | cons event events ih =>
    obtain ⟨hevent, hrest⟩ := forall_mem_cons.mp hok
    obtain ⟨result, heq, hsends, hnamed⟩ := event_sends h hevent
    obtain ⟨s', m', hfold, hpaired, hgrows, hkeys⟩ := ih hrest hsends.paired
    refine ⟨s', m', ?_, hpaired, List.Subset.trans hsends.grows hgrows, ?_⟩
    · have hfeed : feed (s, m) event = .ok (result.1, m.collectAll result.2) := by
        unfold feed
        rw [heq]
      rw [foldlM_cons, hfeed]
      exact hfold
    · exact forall_mem_cons.mpr ⟨fun key hkey => hgrows (hnamed key hkey), hkeys⟩

theorem Paired.length_toolCalls (h : Paired s m) : m.message.toolCalls.length = (keys s).length := by
  have hindices : m.pieces.rows.length = s.nextToolIndex := by
    have hknown := congrArg length h.known
    rwa [indices, length_map, length_range] at hknown
  unfold Collected.message keys
  rw [length_map, length_insertionSort, hindices, length_map, h.count]

theorem Paired.sorted (h : Paired s m) : m.pieces.rows.Pairwise fun a b => a.index ≤ b.index := by
  have hsorted : (indices m).Pairwise (· ≤ ·) := by
    rw [h.known]
    exact pairwise_le_range
  exact pairwise_map.mp hsorted

end HotAI.Convert
