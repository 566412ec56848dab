import HotAI.Convert.Simulation

/-! # Streaming against converting the whole response

What a client collects of a delivered stream, compared with the conversion of the response that was
delivered. -/
namespace HotAI.Convert
open HotAI.Lib List

/-! ## Texts -/

theorem concat_append (texts more : List String) : concat (texts ++ more) = concat texts ++ concat more := by
  induction texts with
  | nil => exact String.empty_append.symm
  | cons text texts ih =>
    change text ++ concat (texts ++ more) = text ++ concat texts ++ concat more
    rw [ih, String.append_assoc]

theorem concat_eq_empty {texts : List String} (h : concat texts = "") : ∀ text ∈ texts, text = "" := by
  induction texts with
  | nil => simp
  | cons text texts ih =>
    change text ++ concat texts = "" at h
    rw [String.append_eq_empty_iff] at h
    exact forall_mem_cons.mpr ⟨h.1, ih h.2⟩

/-! ## One call -/

def outputFirst (early : List (Address × String)) : String :=
  concat ((early.filter fun x => x.1 ≠ .item).map Prod.snd) ++
    concat ((early.filter fun x => x.1 = .item).map Prod.snd)

theorem run_early (c : Call) (early : List (Address × String)) (byOutput byItem : String) :
    run (Progress.step c) (.waiting byOutput byItem) (early.map fun x => .delta x.1 x.2) =
      .waiting (byOutput ++ concat ((early.filter fun x => x.1 ≠ .item).map Prod.snd))
        (byItem ++ concat ((early.filter fun x => x.1 = .item).map Prod.snd)) := by
  induction early generalizing byOutput byItem with
  | nil => simp [concat]
  | cons x early ih =>
    obtain ⟨address, -⟩ := x
    cases address <;> simp [Progress.step, ih, concat, String.append_assoc]

theorem run_late (c : Call) (late : List (Address × String)) (sent arguments : String) :
    run (Progress.step c) (.announced sent arguments) (late.map fun x => .delta x.1 x.2) =
      .announced (sent ++ concat (late.map Prod.snd)) (arguments ++ concat (late.map Prod.snd)) := by
  induction late generalizing sent arguments with
  | nil => simp [concat]
  | cons x late ih =>
    rw [map_cons, run_cons, Progress.step, ih]
    simp [concat, String.append_assoc]

theorem along_deltas (c : Call) (p : Progress) (deltas : List (Address × String)) :
    Along (Progress.step c) (Progress.ok c) p (deltas.map fun x => .delta x.1 x.2) := by
  induction deltas generalizing p with
  | nil => trivial
  | cons x deltas ih =>
    refine ⟨?_, ih _⟩
    cases p <;> trivial

theorem size_outputFirst (early : List (Address × String)) :
    (outputFirst early).utf8ByteSize = (concat (early.map Prod.snd)).utf8ByteSize := by
  unfold outputFirst
  induction early with
  | nil => rfl
  | cons x early ih =>
    obtain ⟨address, text⟩ := x
    have hcons : ∀ texts, (concat (text :: texts)).utf8ByteSize = text.utf8ByteSize + (concat texts).utf8ByteSize :=
      fun texts => String.utf8ByteSize_append
    rw [map_cons, hcons, ← ih]
    cases address <;> simp [hcons] <;> omega

def CallDelivery.sent (d : CallDelivery) : String := outputFirst d.early ++ concat (d.late.map Prod.snd)

section OneCall
variable {c : Call} {d : CallDelivery}

theorem run_toLate (c : Call) (d : CallDelivery) : run (Progress.step c) (.waiting "" "")
        (d.early.map (fun x => .delta x.1 x.2) ++ .added :: d.late.map (fun x => .delta x.1 x.2)) =
      .announced d.sent d.sent := by
  rw [run_append, run_early, run_cons, Progress.step, run_late]
  rfl

theorem sent_run (c : Call) (d : CallDelivery) : (run (Progress.step c) (.waiting "" "") d.events).sent = d.sent := by
  unfold CallDelivery.events
  rw [run_append, run_toLate]
  rfl

theorem along_events (hindexed : d.indexed = true) (harguments : concat ((d.early ++ d.late).map Prod.snd) = c.arguments) :
    Along (Progress.step c) (Progress.ok c) (.waiting "" "") d.events := by
  unfold CallDelivery.events
  rw [along_append, along_append, run_toLate]
  refine ⟨⟨along_deltas c _ _, ?_⟩, trivial, ⟨hindexed, ?_⟩, trivial⟩
  · rw [run_early]
    exact ⟨trivial, along_deltas c _ _⟩
  · rw [← harguments, map_append, concat_append, CallDelivery.sent, String.utf8ByteSize_append,
      String.utf8ByteSize_append, size_outputFirst]

theorem sent_eq_iff (harguments : concat ((d.early ++ d.late).map Prod.snd) = c.arguments) :
    d.sent = c.arguments ↔ d.earlyInOrder := by
  rw [← harguments, map_append, concat_append, CallDelivery.sent, String.append_left_inj]
  rfl

end OneCall

/-! ## The account of a delivery -/

theorem account_run (a : Account) (steps : List Step) : run Account.step a steps =
      ⟨a.text ++ concat (steps.filterMap Step.text?), a.order ++ steps.filterMap Step.added?,
        run (stepPart Step.part Progress.step) a.call steps⟩ := by
  induction steps generalizing a with
  | nil => simp [concat]
  | cons st steps ih =>
    rw [run_cons, ih]
    cases st with
    | text delta => simp [Account.step, Step.text?, Step.added?, filterMap_cons, concat, String.append_assoc]
    | ofCall c e => cases e <;> simp [Account.step, Step.text?, Step.added?, filterMap_cons]

theorem along_account {answer : Answer} {a : Account} {steps : List Step}
    (hparts : Along (stepPart Step.part Progress.step) (okPart Step.part Progress.ok) a.call steps)
    (hknown : ∀ step ∈ steps, ∀ x ∈ step.part, x.1 ∈ answer.calls) :
    Along Account.step (Account.ok answer) a steps := by
  induction steps generalizing a with
  | nil => trivial
  | cons st steps ih =>
    obtain ⟨hst, hrest⟩ := forall_mem_cons.mp hknown
    exact ⟨⟨hparts.1, hst⟩, ih hparts.2 hrest⟩

namespace Delivery
variable {answer : Answer} (d : Delivery answer)

/-- Every `output_item.done` names its call by the output index. -/
def indexed : Prop := ∀ c ∈ answer.calls, (d.ofCall c).indexed = true

theorem call_run {c : Call} (hc : c ∈ answer.calls) :
    (run Account.step Account.none d.steps).call c = run (Progress.step c) (.waiting "" "") (d.ofCall c).events := by
  rw [account_run]
  dsimp only
  rw [run_stepPart, d.events_ofCall c hc]
  rfl

theorem along (hindexed : d.indexed) : Along Account.step (Account.ok answer) Account.none d.steps := by
  refine along_account (along_stepPart Step.part fun c => ?_) d.known
  by_cases hc : c ∈ answer.calls
  · rw [d.events_ofCall c hc]
    exact along_events (hindexed c hc) (d.arguments c hc)
  · -- a call that is not of the response has no events
    have hnone : d.steps.filterMap (partOf Step.part c) = [] := by
      refine filterMap_eq_nil_iff.mpr fun step hstep => ?_
      unfold partOf
      cases hpart : step.part with
      | none => rfl
      | some x =>
        have hx := d.known step hstep x hpart
        have hne : x.1 ≠ c := fun heq => hc (heq ▸ hx)
        simp [hne]
    rw [hnone]
    trivial

theorem mem_added {c : Call} (hc : c ∈ answer.calls) : c ∈ d.added := by
  have hevent : CallEvent.added ∈ d.steps.filterMap (partOf Step.part c) := by
    rw [d.events_ofCall c hc]
    exact mem_append_left _ (mem_append_right _ (mem_cons_self ..))
  obtain ⟨step, hstep, hpart⟩ := mem_filterMap.mp hevent
  refine mem_filterMap.mpr ⟨step, hstep, ?_⟩
  cases step with
  | text delta => cases hpart
  | ofCall c' e =>
    simp only [partOf, Step.part, Option.bind_some] at hpart
    split at hpart
    · next heq =>
      cases hpart
      exact congrArg some heq
    · cases hpart

end Delivery

/-! ## The texts of a message -/

theorem outputText_message (id : String) (texts : List String) :
    (Item.message id texts).output.outputText = concat texts := by
  have hall : ((texts.map fun text => OutputContent.mk "output_text" text).filter fun c => c.type = "output_text") =
      texts.map fun text => OutputContent.mk "output_text" text := by
    refine filter_eq_self.mpr fun content hcontent => ?_
    obtain ⟨-, -, rfl⟩ := mem_map.mp hcontent
    rfl
  unfold Output.outputText Item.output
  rw [hall, map_map]
  exact congrArg concat (map_id texts)

theorem allText_output (item : Item) : item.output.allText = item.text := by
  cases item with
  | message id texts =>
    unfold Output.allText Item.output
    rw [map_map]
    exact congrArg concat (map_id texts)
  | call c => rfl

theorem assistantText_output (item : Item) :
    (if item.output.isAssistantMessage then item.output.outputText else "") = item.text := by
  cases item with
  | message id texts =>
    rw [outputText_message]
    simp [Item.output, Output.isAssistantMessage, Item.text]
  | call c => simp [Item.output, Call.output, Output.isAssistantMessage, Item.text]

theorem concat_filter_map {α : Type} (p : α → Bool) (f : α → String) (l : List α) :
    concat ((l.filter p).map f) = concat (l.map fun x => if p x then f x else "") := by
  induction l with
  | nil => rfl
  | cons x l ih =>
    rw [filter_cons, map_cons]
    cases p x with
    | false =>
      change concat ((l.filter p).map f) = "" ++ concat (l.map fun x => if p x then f x else "")
      rw [ih, String.empty_append]
    | true =>
      change f x ++ concat ((l.filter p).map f) = f x ++ concat (l.map fun x => if p x then f x else "")
      rw [ih]

theorem extractOutputText_output (answer : Answer) : extractOutputText answer.response.output = answer.text := by
  have hassistant : concat ((answer.response.output.filter Output.isAssistantMessage).map Output.outputText) =
      answer.text := by
    rw [concat_filter_map]
    change concat ((answer.items.map Item.output).map _) = _
    rw [map_map]
    exact congrArg concat (map_congr_left fun item _ => assistantText_output item)
  have hall : concat (answer.response.output.map Output.allText) = answer.text := by
    change concat ((answer.items.map Item.output).map _) = _
    rw [map_map]
    exact congrArg concat (map_congr_left fun item _ => allText_output item)
  unfold extractOutputText
  rw [hassistant, hall]
  exact ite_self _

theorem extractReasoningText_output (answer : Answer) : extractReasoningText answer.response.output = "" := by
  have hnone : (answer.response.output.filter fun out => out.type = "reasoning") = [] := by
    refine filter_eq_nil_iff.mpr fun out hout => ?_
    obtain ⟨item, -, rfl⟩ := mem_map.mp hout
    cases item <;> simp [Item.output, Call.output]
  rw [extractReasoningText, hnone]
  rfl

/-! ## The end of the stream -/

section Terminal
variable {answer : Answer} {s : StreamState} {m : Collected} {a : Account} {c : Call}

theorem flushKey_settled {index : ℕ} {p : Progress}
    (hget : s.toolByKey.get (.output c.outputIndex) = some (toolOf index c p))
    (hsize : p.arguments.utf8ByteSize = p.sent.utf8ByteSize) (hpending : s.pendingArgsByOutputIndex.rows = []) :
    flushKey s (.output c.outputIndex) = (s, []) := by
  have hread : s.pendingArgsByOutputIndex.read c.outputIndex = "" := by
    unfold PendingArgs.read Table.get
    rw [hpending]
    rfl
  have htake : takePending s (toolOf index c p) (.output c.outputIndex) = (s, toolOf index c p) := by
    simp [takePending, hread, Table.remove_eq_self hpending, toolOf]
  unfold flushKey
  rw [toolFor, hget]
  dsimp only
  rw [htake]
  rw [Simulates.toolDelta_quiet hsize]
  have hput : s.toolByKey.put (toolOf index c p) = s.toolByKey := Table.put_eq_of_get hget
  rw [hput]

theorem flushAll_settled {ks : List Key} (h : ∀ key ∈ ks, flushKey s key = (s, [])) : flushAll s ks = (s, []) := by
  induction ks with
  | nil => rfl
  | cons key ks ih =>
    obtain ⟨hkey, hrest⟩ := forall_mem_cons.mp h
    simp [flushAll, hkey, ih hrest]

theorem flushAllPendingTools_settled (h : Simulates answer (s, m) a) (hall : ∀ c ∈ answer.calls, c ∈ a.order) :
    flushAllPendingTools { s with finalized := true } = ({ s with finalized := true }, []) := by
  have hannounced : ∀ c ∈ answer.calls, (a.call c).byOutput = "" ∧ (a.call c).byItem = "" := by
    intro c hc
    obtain ⟨sent, arguments, hp⟩ := h.announced (hall c hc)
    rw [hp]
    exact ⟨rfl, rfl⟩
  have hOutput : s.pendingArgsByOutputIndex.rows = [] := h.byOutput.rows_eq_nil fun c hc => (hannounced c hc).1
  have hItem : s.pendingArgsByItemID.rows = [] := h.byItem.rows_eq_nil fun c hc => (hannounced c hc).2
  refine flushAll_settled fun key hkey => ?_
  unfold flushKeys at hkey
  rw [mem_insertionSort, mem_dedup] at hkey
  rw [hOutput, hItem, map_nil, map_nil, append_nil, append_nil] at hkey
  obtain ⟨tool, htool, rfl⟩ := mem_map.mp hkey
  have hrows : s.toolByKey.rows = a.order.map fun c => toolOf (a.order.idxOf c) c (a.call c) := h.tools
  rw [hrows] at htool
  obtain ⟨c, hc, rfl⟩ := mem_map.mp htool
  have hget : ({ s with finalized := true } : StreamState).toolByKey.get (.output c.outputIndex) = _ := h.get_tool hc
  exact flushKey_settled hget (h.sizes c) hOutput

def finishReasonOf (response : Response) (calledTools : Bool) : String :=
  match responsesFinishReasonFromStatus (some response) with
  | some reason => reason
  | none => if calledTools then "tool_calls" else "stop"

theorem feed_terminal (h : Simulates answer (s, m) a) (hall : ∀ c ∈ answer.calls, c ∈ a.order) {response : Response}
    (houtput : terminalOutputChunks s response.output = (s, [])) :
    feed (s, m) ⟨.completed, some response, "", none, none, ""⟩ = .ok ({ s with finalized := true },
        { m with finishReason := some (finishReasonOf response (decide (a.order ≠ []))) }) := by
  have hopen : s.finalized = false := h.finalized
  have hstart : ensureStart { s with finalized := true } = ({ s with finalized := true }, []) :=
    ensureStart_started h.sentStart
  have hfinalize : finalize s (some response) =
      ({ s with finalized := true }, finishChunks { s with finalized := true } (some response)) := by
    unfold finalize
    rw [if_neg (by simp [hopen])]
    simp [flushAllPendingTools_settled h hall, hstart]
  have hterminal : terminal s (some response) =
      ({ s with finalized := true }, finishChunks { s with finalized := true } (some response)) := by
    unfold terminal
    simp [houtput, hfinalize]
  have hcollect : m.collectAll (finishChunks { s with finalized := true } (some response)) =
      { m with finishReason := some (finishReasonOf response (decide (a.order ≠ []))) } := by
    have hsaw : s.sawToolCall = decide (a.order ≠ []) := h.sawToolCall
    unfold finishChunks finishReasonOf
    rw [hsaw]
    cases s.includeUsage <;> rfl
  rw [← hcollect]
  exact feed_sent rfl hterminal

theorem terminalOutputChunks_messages {items : List Item} (hitems : items.filterMap Item.call? = [])
    (htext : s.hasSentText = true ∨ ∀ item ∈ items, item.text = "") :
    terminalOutputChunks s (items.map Item.output) = (s, []) := by
  induction items with
  | nil => rfl
  | cons item items ih =>
    cases item with
    | call c => cases hitems
    | message id texts =>
      have hfirst : terminalItem s (Item.message id texts).output = (s, []) := by
        unfold terminalItem
        rw [outputText_message]
        rcases htext with hsent | hempty
        · simp [Item.output, hsent, isResponsesToolOutputType]
        · have hnone : concat texts = "" := hempty _ (mem_cons_self ..)
          rw [hnone]
          simp [Item.output, textDelta, isResponsesToolOutputType]
      have hrest := ih hitems (htext.imp_right fun h item hitem => h item (mem_cons_of_mem _ hitem))
      rw [map_cons]
      simp [terminalOutputChunks, hfirst, hrest]

end Terminal

/-! ## Both messages -/

def Call.converted (c : Call) : Option ToolCall :=
  if trimSpace c.name = "" then none else some (c.toolCall c.arguments)

theorem toolCallOf_output (c : Call) : toolCallOf (c.output c.arguments) = c.converted := by
  unfold toolCallOf Call.converted
  rw [Simulates.isTool_output]
  rfl

theorem toolCalls_converted (answer : Answer) :
    answer.response.output.filterMap toolCallOf = answer.calls.filterMap Call.converted := by
  change (answer.items.map Item.output).filterMap toolCallOf = (answer.items.filterMap Item.call?).filterMap _
  rw [filterMap_map, filterMap_filterMap]
  refine filterMap_congr fun item _ => ?_
  rw [Function.comp_apply]
  cases item with
  | message id texts => rfl
  | call c => rw [Item.output, toolCallOf_output, Item.call?, Option.bind_some]

theorem converted_eq (answer : Answer) : responsesResponseToChatCompletionsResponse answer.response =
      ⟨answer.text, "", answer.calls.filterMap Call.converted,
        some (finishReasonOf answer.response (decide (answer.calls.filterMap Call.converted ≠ [])))⟩ := by
  unfold responsesResponseToChatCompletionsResponse finishReasonOf
  rw [extractOutputText_output, extractReasoningText_output, toolCalls_converted]
  cases responsesFinishReasonFromStatus (some answer.response) with
  | some reason => rfl
  | none =>
    dsimp only
    split <;> simp_all

namespace Delivery
variable {answer : Answer} (d : Delivery answer)

theorem noError (repeated : Bool) : ∀ event ∈ d.events repeated, ¬ event.isError := by
  intro event hevent
  unfold events at hevent
  rw [cons_append, mem_cons, mem_append, mem_singleton] at hevent
  rcases hevent with rfl | hstep | rfl
  · simp [Event.isError]
  · obtain ⟨step, -, rfl⟩ := mem_map.mp hstep
    cases step with
    | text delta => simp [Event.isError, Step.event]
    | ofCall c e => cases e <;> simp [Event.isError, Step.event, CallEvent.event]
  · simp [Event.isError]

variable {repeated : Bool}

theorem terminal_nothing {s : StreamState} {m : Collected} {a : Account} (h : Simulates answer (s, m) a)
    (htext : a.text = answer.text) (hrepeated : repeated = true → answer.calls = []) :
    terminalOutputChunks s (answer.last repeated).output = (s, []) := by
  cases repeated with
  | false => rfl
  | true =>
    refine terminalOutputChunks_messages (hrepeated rfl) ?_
    have hsent : s.hasSentText = decide (a.text ≠ "") := h.hasSentText
    by_cases hempty : a.text = ""
    · rw [htext] at hempty
      exact .inr fun item hitem => concat_eq_empty hempty _ (mem_map_of_mem hitem)
    · rw [hsent]
      exact .inl (decide_eq_true hempty)

theorem streamed_eq (hindexed : d.indexed) (hrepeated : repeated = true → answer.calls = []) (includeUsage : Bool) :
    streamed includeUsage (d.events repeated) = .ok ⟨answer.text, "", d.added.map fun c => c.toolCall (d.ofCall c).sent,
        some (finishReasonOf answer.response (decide (d.added ≠ [])))⟩ := by
  obtain ⟨⟨s, m⟩, hfold, h⟩ := (Simulates.start answer includeUsage).feed_steps (d.along hindexed)
  have hrun := account_run Account.none d.steps
  have htext : (run Account.step Account.none d.steps).text = answer.text := by
    rw [hrun]
    exact String.empty_append.trans d.texts
  have horder : (run Account.step Account.none d.steps).order = d.added := by
    rw [hrun]
    exact nil_append _
  have hall : ∀ c ∈ answer.calls, c ∈ (run Account.step Account.none d.steps).order := by
    intro c hc
    rw [horder]
    exact d.mem_added hc
  have hlast := feed_terminal h hall (terminal_nothing h htext hrepeated)
  have hevents : (d.events repeated).foldlM feed (newResponsesToChatStreamState includeUsage, Collected.none) =
      .ok ({ s with finalized := true },
        { m with finishReason := some (finishReasonOf (answer.last repeated)
            (decide ((run Account.step Account.none d.steps).order ≠ []))) }) := by
    exact foldlM_snoc hfold hlast
  -- the indices are in order because each tool was new when it was sent
  obtain ⟨s', m', hfold', hpaired, -⟩ := feed_all (d.noError repeated) (paired_new includeUsage)
  have hsame := Except.ok.inj (hevents.symm.trans hfold')
  have hsorted := hpaired.sorted
  rw [← (Prod.mk.inj hsame).2] at hsorted
  have hcalls : (m.pieces.rows.insertionSort fun a b => a.index ≤ b.index).map Piece.call =
      d.added.map fun c => c.toolCall (d.ofCall c).sent := by
    have hpieces := h.pieces
    rw [hsorted.insertionSort_eq, hpieces, map_map, horder]
    refine map_congr_left fun c hc => ?_
    have hmem : c ∈ answer.calls := ((h.mem_order c).mp (horder.symm ▸ hc)).1
    change c.toolCall ((run Account.step Account.none d.steps).call c).sent = _
    rw [d.call_run hmem, sent_run]
  have hreason : finishReasonOf (answer.last repeated) = finishReasonOf answer.response := by
    cases repeated <;> rfl
  unfold streamed
  rw [hevents]
  change Except.ok (ChatMessage.mk _ _ _ _) = _
  rw [hcalls, hreason, horder]
  have hcontent : m.content = answer.text := h.content.trans htext
  have hreasoning : m.reasoning = "" := h.reasoning
  rw [hcontent, hreasoning]

theorem added_perm (hindexed : d.indexed) : d.added.Perm answer.calls := by
  obtain ⟨⟨s, m⟩, -, h⟩ := (Simulates.start answer false).feed_steps (d.along hindexed)
  have horder : (run Account.step Account.none d.steps).order = d.added := by
    rw [account_run]
    exact nil_append _
  have hnodup := h.nodup
  rw [horder] at hnodup
  refine (perm_ext_iff_of_nodup hnodup answer.nodup_calls).mpr fun c => ?_
  constructor
  · intro hc
    exact ((h.mem_order c).mp (horder.symm ▸ hc)).1
  · exact d.mem_added

/-! ## Calls that are sent twice -/

theorem event_mem {c : Call} {e : CallEvent} (hc : c ∈ answer.calls) (he : e ∈ (d.ofCall c).events)
    (repeated : Bool) : e.event c ∈ d.events repeated := by
  rw [← d.events_ofCall c hc] at he
  obtain ⟨step, hstep, hpart⟩ := mem_filterMap.mp he
  have hevent : step.event = e.event c := by
    cases step with
    | text delta => cases hpart
    | ofCall c' e' =>
      simp only [partOf, Step.part, Option.bind_some] at hpart
      split at hpart
      · next heq =>
        cases hpart
        exact congrArg e.event heq
      · cases hpart
  rw [← hevent]
  exact mem_cons_of_mem _ (mem_append_left _ (mem_map_of_mem hstep))

theorem namedKeys_added (c : Call) : Key.output c.outputIndex ∈ namedKeys (CallEvent.event c .added) := by
  simp [namedKeys, CallEvent.event, keyForEvent, Simulates.isTool_output]

theorem namedKeys_itemDone {c : Call} (hc : c.item ≠ "") :
    Key.item c.item ∈ namedKeys (CallEvent.event c (.itemDone false)) := by
  have hid : trimSpace c.itemID ≠ "" := hc
  simp [namedKeys, CallEvent.event, keyForEvent, isResponsesToolOutputType, Call.output, hid, Call.item]

theorem namedKeys_completed {c : Call} (hc : c ∈ answer.calls) :
    Key.item c.item ∈ namedKeys ⟨.completed, some (answer.last true), "", none, none, ""⟩ := by
  obtain ⟨item, hitem, hcall⟩ := mem_filterMap.mp hc
  have hout : c.output c.arguments ∈ answer.response.output := by
    refine mem_map.mpr ⟨item, hitem, ?_⟩
    cases item with
    | message id texts => cases hcall
    | call c' =>
      cases hcall
      rfl
  have hid : trimSpace (c.output c.arguments).id ≠ "" := answer.identified c hc
  refine mem_map.mpr ⟨c.output c.arguments, mem_filter.mpr ⟨hout, ?_⟩, rfl⟩
  rw [Simulates.isTool_output, Bool.true_and, decide_eq_true hid]

/-- A call that is also named by its item id becomes a second tool, and the client has one call too many. -/
theorem too_many (includeUsage repeated : Bool) {c : Call}
    (hagain : ∃ event ∈ d.events repeated, Key.item c.item ∈ namedKeys event) :
    ∃ message, streamed includeUsage (d.events repeated) = .ok message ∧ answer.calls.length < message.toolCalls.length := by
  obtain ⟨s, m, hfold, hpaired, -, hkeys⟩ := feed_all (d.noError repeated) (paired_new includeUsage)
  refine ⟨m.message, by rw [streamed, hfold]; rfl, ?_⟩
  obtain ⟨event, hevent, hagain⟩ := hagain
  have hnodup : (Key.item c.item :: answer.calls.map fun c => Key.output c.outputIndex).Nodup := by
    refine nodup_cons.mpr ⟨by simp, ?_⟩
    refine List.Nodup.map_on ?_ answer.nodup_calls
    intro x hx y hy heq
    exact answer.eq_of_outputIndex hx hy (Key.output.inj heq)
  have hsub : Key.item c.item :: (answer.calls.map fun c => Key.output c.outputIndex) ⊆ keys s := by
    refine cons_subset.mpr ⟨hkeys event hevent _ hagain, fun key hkey => ?_⟩
    obtain ⟨c', hc', rfl⟩ := mem_map.mp hkey
    have hadded : CallEvent.added ∈ (d.ofCall c').events :=
      mem_append_left _ (mem_append_right _ (mem_cons_self ..))
    exact hkeys _ (d.event_mem hc' hadded repeated) _ (namedKeys_added c')
  have hlength := (hnodup.subperm hsub).length_le
  rw [length_cons, length_map] at hlength
  rw [hpaired.length_toolCalls]
  exact hlength

theorem named_twice_of_not_indexed (h : ¬ d.indexed) (repeated : Bool) :
    ∃ c ∈ answer.calls, ∃ event ∈ d.events repeated, Key.item c.item ∈ namedKeys event := by
  unfold indexed at h
  push Not at h
  obtain ⟨c, hc, hindexed⟩ := h
  have hdone : CallEvent.itemDone false ∈ (d.ofCall c).events := by
    refine mem_append_right _ ?_
    rw [← Bool.eq_false_iff.mpr hindexed]
    exact mem_cons_of_mem _ (mem_singleton.mpr rfl)
  exact ⟨c, hc, _, d.event_mem hc hdone repeated, namedKeys_itemDone (answer.identified c hc)⟩

theorem named_twice_of_repeated (h : answer.calls ≠ []) :
    ∃ c ∈ answer.calls, ∃ event ∈ d.events true, Key.item c.item ∈ namedKeys event := by
  obtain ⟨c, hc⟩ := exists_mem_of_ne_nil _ h
  refine ⟨c, hc, _, ?_, namedKeys_completed hc⟩
  exact mem_cons_of_mem _ (mem_append_right _ (mem_singleton.mpr rfl))

/-! ## When both agree -/

theorem length_converted_eq_iff (calls : List Call) :
    (calls.filterMap Call.converted).length = calls.length ↔ ∀ c ∈ calls, trimSpace c.name ≠ "" := by
  rw [length_filterMap_eq_countP, countP_eq_length]
  refine forall₂_congr fun c _ => ?_
  unfold Call.converted
  split <;> simp_all

theorem converted_of_named {calls : List Call} (h : ∀ c ∈ calls, trimSpace c.name ≠ "") :
    calls.filterMap Call.converted = calls.map fun c => c.toolCall c.arguments := by
  rw [← filterMap_eq_map]
  refine filterMap_congr fun c hc => ?_
  exact if_neg (h c hc)

theorem map_id_toolCall (calls : List Call) (arguments : Call → String) :
    (calls.map fun c => c.toolCall (arguments c)).map ToolCall.id = calls.map Call.id := by
  rw [map_map]
  refine map_congr_left fun c _ => ?_
  rw [Function.comp_apply, Call.toolCall]

theorem toolCalls_eq_iff {added : List Call} (hperm : added.Perm answer.calls) {sent : Call → String} :
    (added.map fun c => c.toolCall (sent c)) = (answer.calls.map fun c => c.toolCall c.arguments) ↔
      added = answer.calls ∧ ∀ c ∈ answer.calls, sent c = c.arguments := by
  constructor
  · intro heq
    have hids : added.map Call.id = answer.calls.map Call.id := by
      have hmap := congrArg (map ToolCall.id) heq
      rwa [map_id_toolCall, map_id_toolCall] at hmap
    have hsame : added = answer.calls := by
      refine ext_getElem hperm.length_eq fun i h₁ h₂ => ?_
      have hget : (added.map Call.id)[i]? = (answer.calls.map Call.id)[i]? := by rw [hids]
      rw [getElem?_map, getElem?_map, getElem?_eq_getElem h₁, getElem?_eq_getElem h₂] at hget
      exact answer.eq_of_id (hperm.mem_iff.mp (getElem_mem h₁)) (getElem_mem h₂) (Option.some.inj hget)
    refine ⟨hsame, fun c hc => ?_⟩
    rw [hsame] at heq
    exact congrArg ToolCall.arguments (map_inj_left.mp heq c hc)
  · rintro ⟨rfl, hsent⟩
    refine map_congr_left fun c hc => ?_
    rw [hsent c hc]

/-- Streaming gives the message of the whole response exactly if the terminal event repeats no call, closing events name
their call by output index, no name is blank, calls are announced in output order, and no early delta without an output index
precedes one with it, unless that makes no difference. -/
theorem streamed_eq_converted_iff (includeUsage repeated : Bool) :
    streamed includeUsage (d.events repeated) = .ok (responsesResponseToChatCompletionsResponse answer.response) ↔
      (repeated = true → answer.calls = []) ∧ d.indexed ∧ (∀ c ∈ answer.calls, trimSpace c.name ≠ "") ∧
        d.added = answer.calls ∧ ∀ c ∈ answer.calls, (d.ofCall c).earlyInOrder := by
  have htwice : (∃ c ∈ answer.calls, ∃ event ∈ d.events repeated, Key.item c.item ∈ namedKeys event) →
      streamed includeUsage (d.events repeated) ≠
        .ok (responsesResponseToChatCompletionsResponse answer.response) := by
    rintro ⟨c, -, hagain⟩ heq
    obtain ⟨message, hmessage, hlength⟩ := d.too_many includeUsage repeated hagain
    have hsame := Except.ok.inj (hmessage.symm.trans heq)
    rw [hsame, converted_eq] at hlength
    exact absurd (length_filterMap_le _ _) (not_le.mpr hlength)
  by_cases hrepeated : repeated = true → answer.calls = []
  · by_cases hindexed : d.indexed
    · have hperm := d.added_perm hindexed
      rw [d.streamed_eq hindexed hrepeated, converted_eq, Except.ok.injEq, ChatMessage.mk.injEq]
      constructor
      · rintro ⟨-, -, hcalls, -⟩
        have hlength := congrArg length hcalls
        rw [length_map, hperm.length_eq, eq_comm, length_converted_eq_iff] at hlength
        rw [converted_of_named hlength, toolCalls_eq_iff hperm] at hcalls
        exact ⟨hrepeated, hindexed, hlength, hcalls.1,
          fun c hc => (sent_eq_iff (d.arguments c hc)).mp (hcalls.2 c hc)⟩
      · rintro ⟨-, -, hnamed, hadded, hearly⟩
        have hcalls := (toolCalls_eq_iff hperm).mpr
          ⟨hadded, fun c hc => (sent_eq_iff (d.arguments c hc)).mpr (hearly c hc)⟩
        refine ⟨rfl, rfl, hcalls.trans (converted_of_named hnamed).symm, ?_⟩
        rw [converted_of_named hnamed, hadded]
        simp
    · exact iff_of_false (htwice (d.named_twice_of_not_indexed hindexed repeated)) fun hand => hindexed hand.2.1
  · refine iff_of_false (htwice ?_) fun hand => hrepeated hand.1
    push Not at hrepeated
    obtain ⟨hrep, hne⟩ := hrepeated
    rw [hrep]
    exact d.named_twice_of_repeated hne

end Delivery

/-! ## A stream that sends its call twice -/

def weatherCall : Call := ⟨0, "fc_1", "call_1", "get_weather", "\x7b\x7d"⟩

def weatherAnswer : Answer where
  items := [.call weatherCall]
  status := "completed"
  incompleteReason := none
  indices := by decide
  itemIDs := by decide
  identified := by decide
  callIDs := by decide

def weatherDelivery : Delivery weatherAnswer where
  steps := [.ofCall weatherCall .added, .ofCall weatherCall (.delta .both "\x7b\x7d"),
    .ofCall weatherCall (.argsDone .both), .ofCall weatherCall (.itemDone true)]
  ofCall := fun _ => ⟨[], [(.both, "\x7b\x7d")], .both, true⟩
  known := by decide
  events_ofCall := by decide
  arguments := by decide
  texts := by decide

theorem repeated_call_sent_twice : streamed true (weatherDelivery.events true) =
      .ok ⟨"", "", [⟨"call_1", "get_weather", "\x7b\x7d"⟩, ⟨"call_1", "get_weather", "\x7b\x7d"⟩], some "tool_calls"⟩ ∧
      responsesResponseToChatCompletionsResponse weatherAnswer.response =
        ⟨"", "", [⟨"call_1", "get_weather", "\x7b\x7d"⟩], some "tool_calls"⟩ := by
  decide +kernel

end HotAI.Convert
