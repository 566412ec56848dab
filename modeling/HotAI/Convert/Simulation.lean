import HotAI.Convert.Tools

/-! # A delivered stream, call by call

The arguments of a call come in and at first have to wait, then the call is announced to the client and every further delta
is passed on. The state of the conversion is how far each call has come. -/
namespace HotAI.Convert
open HotAI.Lib List Function Table Option

inductive Progress where
  | waiting (byOutput byItem : String)
  | announced (sent arguments : String)
deriving DecidableEq, Repr

namespace Progress

def sent : Progress → String
  | .waiting _ _ => ""
  | .announced sent _ => sent

def arguments : Progress → String
  | .waiting _ _ => ""
  | .announced _ arguments => arguments

def byOutput : Progress → String
  | .waiting byOutput _ => byOutput
  | .announced _ _ => ""

def byItem : Progress → String
  | .waiting _ byItem => byItem
  | .announced _ _ => ""

def key (c : Call) : Progress → Option Key
  | .waiting _ _ => none
  | .announced _ _ => some (.output c.outputIndex)

def step (c : Call) : Progress → CallEvent → Progress
  | .waiting byOutput byItem, .delta .item text => .waiting byOutput (byItem ++ text)
  | .waiting byOutput byItem, .delta .output text => .waiting (byOutput ++ text) byItem
  | .waiting byOutput byItem, .delta .both text => .waiting (byOutput ++ text) byItem
  | .announced sent arguments, .delta _ text => .announced (sent ++ text) (arguments ++ text)
  | .waiting byOutput byItem, .added => .announced (byOutput ++ byItem) (byOutput ++ byItem)
  | .announced sent arguments, .itemDone _ =>
      .announced sent (if c.arguments ≠ "" then c.arguments else arguments)
  | p, _ => p

/-- The events of a call come in their order, and the closing one finds as many bytes sent as there are. -/
def ok (c : Call) : Progress → CallEvent → Prop
  | _, .delta _ _ => True
  | .waiting _ _, .added => True
  | .announced _ _, .argsDone _ => True
  | .announced sent _, .itemDone indexed => indexed ∧ sent.utf8ByteSize = c.arguments.utf8ByteSize
  | _, _ => False

end Progress

structure Account where
  text : String
  order : List Call
  call : Call → Progress

namespace Account

def none : Account := ⟨"", [], fun _ => .waiting "" ""⟩

def step (a : Account) (st : Step) : Account where
  text := a.text ++ st.text?.getD ""
  order := a.order ++ st.added?.toList
  call := stepPart Step.part Progress.step a.call st

def ok (answer : Answer) (a : Account) (st : Step) : Prop :=
  okPart Step.part Progress.ok a.call st ∧ ∀ x ∈ st.part, x.1 ∈ answer.calls

end Account

/-! ## Pending arguments -/

section Pending
variable {κ : Type} [DecidableEq κ] (calls : List Call) (key : Call → κ)

structure PendingFor (text : Call → String) (pending : PendingArgs κ) : Prop where
  get : ∀ c ∈ calls, pending.get (key c) = if text c = "" then none else some (key c, text c)
  only : ∀ entry ∈ pending.rows, ∃ c ∈ calls, key c = entry.1

variable {calls key} {text : Call → String} {pending : PendingArgs κ}

theorem PendingFor.read (h : PendingFor calls key text pending) {c : Call} (hc : c ∈ calls) :
    pending.read (key c) = text c := by
  unfold PendingArgs.read
  rw [h.get c hc]
  split
  · next hempty => exact hempty.symm
  · rfl

theorem PendingFor.append (h : PendingFor calls key text pending)
    (hkey : ∀ c ∈ calls, ∀ d ∈ calls, key c = key d → c = d) {c : Call} (hc : c ∈ calls) {delta : String}
    (hdelta : delta ≠ "") :
    PendingFor calls key (update text c (text c ++ delta)) (pending.append (key c) delta) := by
  have hnew : text c ++ delta ≠ "" := by simp [hdelta]
  have hget := h.get c hc
  unfold PendingArgs.append
  cases hentry : pending.get (key c) with
  | none =>
    rw [hentry] at hget
    have hempty : text c = "" := by
      by_contra hne
      rw [if_neg hne] at hget
      cases hget
    constructor
    · intro d hd
      by_cases hdc : d = c
      · subst hdc
        rw [update_self, if_neg hnew, hempty]
        exact get_add_self hentry
      · rw [update_of_ne hdc, ← h.get d hd]
        exact get_add_of_ne fun heq => hdc (hkey d hd c hc heq)
    · intro entry hmem
      rcases (mem_add hentry entry).mp hmem with hold | rfl
      · exact h.only entry hold
      · exact ⟨c, hc, rfl⟩
  | some entry =>
    rw [hentry] at hget
    have hold : entry = (key c, text c) := by
      split at hget
      · cases hget
      · exact some.inj hget
    subst hold
    constructor
    · intro d hd
      by_cases hdc : d = c
      · subst hdc
        rw [update_self, if_neg hnew]
        exact get_put_self hentry
      · rw [update_of_ne hdc, ← h.get d hd]
        exact get_put_of_ne fun heq => hdc (hkey d hd c hc heq)
    · intro entry hmem
      rcases (mem_put hentry entry).mp hmem with rfl | ⟨hmem, -⟩
      · exact ⟨c, hc, rfl⟩
      · exact h.only entry hmem

theorem PendingFor.take (h : PendingFor calls key text pending)
    (hkey : ∀ c ∈ calls, ∀ d ∈ calls, key c = key d → c = d) {c : Call} (hc : c ∈ calls) :
    PendingFor calls key (update text c "")
      (if pending.read (key c) = "" then pending else pending.remove (key c)) := by
  rw [h.read hc]
  split
  · next hempty => rwa [← hempty, update_eq_self]
  · constructor
    · intro d hd
      by_cases hdc : d = c
      · subst hdc
        rw [update_self]
        refine eq_none_iff_forall_ne_some.mpr fun entry hentry => ?_
        obtain ⟨hmem, heq⟩ := (get_eq_some_iff _ _ _).mp hentry
        exact ((mem_remove entry).mp hmem).2 heq
      · rw [update_of_ne hdc, ← h.get d hd]
        refine ext fun entry => ?_
        rw [get_eq_some_iff, get_eq_some_iff, mem_remove]
        constructor
        · rintro ⟨⟨hmem, -⟩, heq⟩
          exact ⟨hmem, heq⟩
        · rintro ⟨hmem, heq⟩
          exact ⟨⟨hmem, fun hck => hdc (hkey d hd c hc (heq.symm.trans hck))⟩, heq⟩
    · intro entry hmem
      exact h.only entry ((mem_remove entry).mp hmem).1

theorem PendingFor.rows_eq_nil (h : PendingFor calls key text pending) (hempty : ∀ c ∈ calls, text c = "") :
    pending.rows = [] := by
  refine eq_nil_iff_forall_not_mem.mpr fun entry hmem => ?_
  obtain ⟨c, hc, heq⟩ := h.only entry hmem
  have hget := h.get c hc
  rw [heq, if_pos (hempty c hc), Table.get_of_mem hmem] at hget
  cases hget

end Pending

/-! ## What the state says about the calls -/

def toolOf (index : ℕ) (c : Call) (p : Progress) : Tool :=
  ⟨.output c.outputIndex, c.id, c.item, trimSpace c.name, p.arguments, index, true, trimSpace c.name ≠ "",
    p.sent.utf8ByteSize⟩

def pieceOf (index : ℕ) (c : Call) (p : Progress) : Piece := ⟨index, c.toolCall p.sent⟩

structure Simulates (answer : Answer) (x : StreamState × Collected) (a : Account) : Prop where
  sentStart : x.1.sentStart = true
  finalized : x.1.finalized = false
  hasSentText : x.1.hasSentText = decide (a.text ≠ "")
  sawToolCall : x.1.sawToolCall = decide (a.order ≠ [])
  nextToolIndex : x.1.nextToolIndex = a.order.length
  tools : x.1.toolByKey.rows = a.order.map fun c => toolOf (a.order.idxOf c) c (a.call c)
  outputIndexToKey : ∀ c ∈ answer.calls, x.1.outputIndexToKey c.outputIndex = (a.call c).key c
  itemIDToKey : ∀ c ∈ answer.calls, x.1.itemIDToKey c.item = (a.call c).key c
  byOutput : PendingFor answer.calls Call.outputIndex (fun c => (a.call c).byOutput) x.1.pendingArgsByOutputIndex
  byItem : PendingFor answer.calls Call.item (fun c => (a.call c).byItem) x.1.pendingArgsByItemID
  content : x.2.content = a.text
  reasoning : x.2.reasoning = ""
  finishReason : x.2.finishReason = none
  pieces : x.2.pieces.rows = a.order.map fun c => pieceOf (a.order.idxOf c) c (a.call c)
  nodup : a.order.Nodup
  mem_order : ∀ c, c ∈ a.order ↔ c ∈ answer.calls ∧ (a.call c).key c ≠ none
  sizes : ∀ c, (a.call c).arguments.utf8ByteSize = (a.call c).sent.utf8ByteSize

theorem Answer.id_ne {answer : Answer} {c : Call} (hc : c ∈ answer.calls) : trimSpace c.id = c.id ∧ c.id ≠ "" := by
  unfold Call.id
  split
  · exact ⟨trimSpace_idem _, answer.identified c hc⟩
  · next hne => exact ⟨trimSpace_idem _, hne⟩

theorem ensureStart_started {s : StreamState} (h : s.sentStart = true) : ensureStart s = (s, []) := by
  rw [ensureStart, if_pos h]

variable {event : Event} {result : Sent}

theorem feed_sent {s s' : StreamState} {m : Collected} {chunks : List Chunk}
    (hevent : responsesStreamEventToChatChunks s event = (result.1, .ok result.2)) (hresult : result = (s', chunks)) :
    feed (s, m) event = .ok (s', m.collectAll chunks) := by
  unfold feed
  rw [hevent, hresult]

theorem feed_silent {s s' : StreamState} {m : Collected}
    (hevent : responsesStreamEventToChatChunks s event = (result.1, .ok result.2)) (hresult : result = (s', [])) :
    feed (s, m) event = .ok (s', m) := feed_sent hevent hresult

namespace Simulates

variable {answer : Answer} {s : StreamState} {m : Collected} {a : Account} {c : Call}

section
variable (h : Simulates answer (s, m) a)
include h

theorem announced (hc : c ∈ a.order) : ∃ sent arguments, a.call c = .announced sent arguments := by
  have hkey := ((h.mem_order c).mp hc).2
  cases hp : a.call c with
  | waiting byOutput byItem =>
    rw [hp] at hkey
    exact absurd rfl hkey
  | announced sent arguments => exact ⟨sent, arguments, rfl⟩

theorem get_tool (hc : c ∈ a.order) :
    s.toolByKey.get (.output c.outputIndex) = some (toolOf (a.order.idxOf c) c (a.call c)) := by
  have hmem : toolOf (a.order.idxOf c) c (a.call c) ∈ s.toolByKey.rows := by
    rw [h.tools]
    exact mem_map.mpr ⟨c, hc, rfl⟩
  exact get_of_mem hmem

theorem get_piece (hc : c ∈ a.order) : m.pieces.get (a.order.idxOf c) = some (pieceOf (a.order.idxOf c) c (a.call c)) := by
  have hmem : pieceOf (a.order.idxOf c) c (a.call c) ∈ m.pieces.rows := by
    rw [h.pieces]
    exact mem_map.mpr ⟨c, hc, rfl⟩
  exact get_of_mem hmem

theorem get_tool_waiting (hc : c ∈ answer.calls) (hnew : c ∉ a.order) : s.toolByKey.get (.output c.outputIndex) = none := by
  refine eq_none_iff_forall_ne_some.mpr fun tool htool => hnew ?_
  obtain ⟨hmem, hkey⟩ := (get_eq_some_iff _ _ _).mp htool
  rw [h.tools] at hmem
  obtain ⟨d, hd, rfl⟩ := mem_map.mp hmem
  have hdc := answer.eq_of_outputIndex ((h.mem_order d).mp hd).1 hc (Key.output.inj hkey)
  exact hdc ▸ hd

theorem get_piece_waiting : m.pieces.get a.order.length = none := by
  refine eq_none_iff_forall_ne_some.mpr fun piece hpiece => ?_
  obtain ⟨hmem, hindex⟩ := (get_eq_some_iff _ _ _).mp hpiece
  rw [h.pieces] at hmem
  obtain ⟨d, hd, rfl⟩ := mem_map.mp hmem
  have hlt := idxOf_lt_length_of_mem hd
  exact absurd hindex hlt.ne

end

variable {p : Progress} {text : String} {call : Call → Progress} {e : CallEvent}

theorem read_update {β : Type} (f : Call → Progress → β)
    (hf : f c p = f c (call c)) (d : Call) : f d (update call c p d) = f d (call d) := by
  by_cases hdc : d = c
  · subst hdc
    rw [update_self, hf]
  · rw [update_of_ne hdc]

section
variable (h : Simulates answer (s, m) a)
include h

theorem sizes_update (hsize : p.arguments.utf8ByteSize = p.sent.utf8ByteSize) (d : Call) :
    (update a.call c p d).arguments.utf8ByteSize = (update a.call c p d).sent.utf8ByteSize := by
  by_cases hdc : d = c
  · subst hdc
    rw [update_self]
    exact hsize
  · rw [update_of_ne hdc]
    exact h.sizes d

theorem advance (hc : c ∈ a.order) {sent arguments : String} (hsize : arguments.utf8ByteSize = sent.utf8ByteSize) :
    Simulates answer ({ s with
          toolByKey := s.toolByKey.put (toolOf (a.order.idxOf c) c (.announced sent arguments))
          sawToolCall := true },
        { m with pieces := m.pieces.put (pieceOf (a.order.idxOf c) c (.announced sent arguments)) })
      { a with call := update a.call c (.announced sent arguments) } := by
  obtain ⟨sent₀, arguments₀, hp⟩ := h.announced hc
  have hrow : ∀ {ρ : Type} (f : ℕ → Call → Progress → ρ),
      (a.order.map (update (fun d => f (a.order.idxOf d) d (a.call d)) c
          (f (a.order.idxOf c) c (.announced sent arguments)))) =
        a.order.map fun d => f (a.order.idxOf d) d (update a.call c (.announced sent arguments) d) := by
    intro ρ f
    refine map_congr_left fun d _ => ?_
    by_cases hdc : d = c
    · subst hdc
      rw [update_self, update_self]
    · rw [update_of_ne hdc, update_of_ne hdc]
  have hkey : ∀ d, (update a.call c (.announced sent arguments) d).key d = (a.call d).key d :=
    read_update (fun d p => p.key d) (by rw [hp]; rfl)
  have hOutput : ∀ d, (update a.call c (.announced sent arguments) d).byOutput = (a.call d).byOutput :=
    read_update (fun _ p => p.byOutput) (by rw [hp]; rfl)
  have hItem : ∀ d, (update a.call c (.announced sent arguments) d).byItem = (a.call d).byItem :=
    read_update (fun _ p => p.byItem) (by rw [hp]; rfl)
  refine
    { h with
      sawToolCall := (decide_eq_true (ne_nil_of_mem hc)).symm
      tools := ?_
      outputIndexToKey := fun d hd => (h.outputIndexToKey d hd).trans (hkey d).symm
      itemIDToKey := fun d hd => (h.itemIDToKey d hd).trans (hkey d).symm
      byOutput := ?_
      byItem := ?_
      pieces := ?_
      mem_order := ?_
      sizes := h.sizes_update hsize }
  · refine Eq.trans (rows_put h.tools hc ?_) (hrow toolOf)
    rfl
  · exact (funext hOutput).symm ▸ h.byOutput
  · exact (funext hItem).symm ▸ h.byItem
  · refine Eq.trans (rows_put h.pieces hc ?_) (hrow pieceOf)
    rfl
  · intro d
    rw [h.mem_order d, hkey d]

theorem waiting (hc : c ∈ answer.calls) (hnew : c ∉ a.order) : ∃ byOutput byItem, a.call c = .waiting byOutput byItem := by
  cases hp : a.call c with
  | waiting byOutput byItem => exact ⟨byOutput, byItem, rfl⟩
  | announced sent arguments =>
    refine absurd ((h.mem_order c).mpr ⟨hc, ?_⟩) hnew
    rw [hp]
    exact some_ne_none _

theorem wait (hc : c ∈ answer.calls) (hnew : c ∉ a.order)
    {byOutput byItem : String} {pendingByOutput : PendingArgs ℤ} {pendingByItem : PendingArgs String}
    (hOutput : PendingFor answer.calls Call.outputIndex (update (fun d => (a.call d).byOutput) c byOutput) pendingByOutput)
    (hItem : PendingFor answer.calls Call.item (update (fun d => (a.call d).byItem) c byItem) pendingByItem) :
    Simulates answer ({ s with pendingArgsByOutputIndex := pendingByOutput, pendingArgsByItemID := pendingByItem }, m)
      { a with call := update a.call c (.waiting byOutput byItem) } := by
  obtain ⟨byOutput₀, byItem₀, hp⟩ := h.waiting hc hnew
  have hkey : ∀ d, (update a.call c (.waiting byOutput byItem) d).key d = (a.call d).key d :=
    read_update (fun d p => p.key d) (by rw [hp]; rfl)
  have hrow : ∀ {ρ : Type} (f : ℕ → Call → Progress → ρ),
      (a.order.map fun d => f (a.order.idxOf d) d (a.call d)) =
        a.order.map fun d => f (a.order.idxOf d) d (update a.call c (.waiting byOutput byItem) d) := by
    intro ρ f
    refine map_congr_left fun d hd => ?_
    have hdc : d ≠ c := fun heq => hnew (heq ▸ hd)
    rw [update_of_ne hdc]
  have hread : ∀ (f : Progress → String), (fun d => f (update a.call c (.waiting byOutput byItem) d)) =
      update (fun d => f (a.call d)) c (f (.waiting byOutput byItem)) := by
    intro f
    funext d
    exact apply_update (fun _ => f) a.call c _ d
  refine
    { h with
      tools := h.tools.trans (hrow toolOf)
      outputIndexToKey := fun d hd => (h.outputIndexToKey d hd).trans (hkey d).symm
      itemIDToKey := fun d hd => (h.itemIDToKey d hd).trans (hkey d).symm
      byOutput := ?_
      byItem := ?_
      pieces := h.pieces.trans (hrow pieceOf)
      mem_order := ?_
      sizes := h.sizes_update rfl }
  · exact (hread Progress.byOutput).symm ▸ hOutput
  · exact (hread Progress.byItem).symm ▸ hItem
  · intro d
    rw [h.mem_order d, hkey d]

end

/-! ## One event of a call -/

theorem findToolForEvent_eq (h : Simulates answer (s, m) a) (hc : c ∈ answer.calls) (address : Address)
    (type : EventType) (text : String) :
    findToolForEvent s ⟨type, none, text, none, address.outputIndex c, address.itemID c⟩ =
      if c ∈ a.order then some (toolOf (a.order.idxOf c) c (a.call c)) else none := by
  have hkey : (a.call c).key c = if c ∈ a.order then some (.output c.outputIndex) else none := by
    by_cases hmem : c ∈ a.order
    · obtain ⟨sent, arguments, hp⟩ := h.announced hmem
      rw [hp, if_pos hmem]
      rfl
    · rw [if_neg hmem]
      by_contra hne
      exact hmem ((h.mem_order c).mpr ⟨hc, hne⟩)
  have hitem : trimSpace c.itemID ≠ "" := answer.identified c hc
  have hfind : findToolForEvent s ⟨type, none, text, none, address.outputIndex c, address.itemID c⟩ =
      ((a.call c).key c).bind s.toolByKey.get := by
    have hindex : s.outputIndexToKey c.outputIndex = (a.call c).key c := h.outputIndexToKey c hc
    have hid : s.itemIDToKey (trimSpace c.itemID) = (a.call c).key c := h.itemIDToKey c hc
    unfold findToolForEvent
    cases address with
    | output => simp [Address.outputIndex, Address.itemID, hindex, trimSpace, trimEnds]
    | item => simp [Address.outputIndex, Address.itemID, hid, hitem]
    | both => simp [Address.outputIndex, Address.itemID, hindex, hid, hitem]
  rw [hfind, hkey]
  split
  · next hmem => exact h.get_tool hmem
  · rfl

theorem argsDelta_toolOf (hsize : p.arguments.utf8ByteSize = p.sent.utf8ByteSize) (index : ℕ) :
    (toolOf index c p).argsDelta "" = "" := by
  unfold Tool.argsDelta
  rw [if_neg]
  rintro ⟨-, hlt⟩
  exact absurd (hsize ▸ hlt) (lt_irrefl _)

theorem toolDelta_quiet (hsize : p.arguments.utf8ByteSize = p.sent.utf8ByteSize) (index : ℕ) :
    toolDelta s (toolOf index c p) "" = ({ s with toolByKey := s.toolByKey.put (toolOf index c p) }, []) := by
  have hname : (toolOf index c p).name = "" ∨ (toolOf index c p).nameSent = true := by
    by_cases hempty : trimSpace c.name = ""
    · exact .inl hempty
    · exact .inr (by rw [toolOf, decide_eq_true hempty])
  unfold toolDelta
  rw [argsDelta_toolOf hsize]
  exact if_pos ⟨rfl, rfl, hname⟩

theorem toolDelta_loud (h : Simulates answer (s, m) a) (hc : c ∈ answer.calls) (htext : text ≠ "") (index : ℕ) :
    toolDelta s { toolOf index c p with arguments := p.arguments ++ text } text =
      ({ s with
          toolByKey := s.toolByKey.put (toolOf index c (.announced (p.sent ++ text) (p.arguments ++ text)))
          sawToolCall := true },
        [.toolCall index c.id "" text]) := by
  obtain ⟨htrim, hne⟩ := answer.id_ne hc
  unfold toolDelta
  have hargs : ({ toolOf index c p with arguments := p.arguments ++ text } : Tool).argsDelta text = text :=
    if_neg fun hand => htext hand.1
  rw [hargs]
  rw [if_neg fun hand => htext hand.2.1, ensureStart_started h.sentStart]
  refine Prod.ext ?_ ?_
  · simp [Tool.afterSending, toolOf, Progress.sent, Progress.arguments]
  · simp [Tool.chunk, toolOf, htrim, hne]

theorem feed_text (h : Simulates answer (s, m) a) (delta : String) :
    ∃ x, feed (s, m) (Step.text delta).event = .ok x ∧ Simulates answer x (a.step (.text delta)) := by
  have hstep : a.step (.text delta) = { a with text := a.text ++ delta } := by
    unfold Account.step
    simp [Step.text?, Step.added?, stepPart, Step.part]
  by_cases hempty : delta = ""
  · subst hempty
    refine ⟨(s, m), rfl, ?_⟩
    rw [hstep, String.append_empty]
    exact h
  · have hsent : textDelta s delta = ({ s with hasSentText := true }, [.content delta]) := by
      have hstart : ensureStart { s with hasSentText := true } = ({ s with hasSentText := true }, []) :=
        ensureStart_started h.sentStart
      rw [textDelta, if_neg hempty, hstart]
      rfl
    refine ⟨({ s with hasSentText := true }, { m with content := m.content ++ delta }), ?_, ?_⟩
    · exact feed_sent rfl hsent
    · rw [hstep]
      have htext : decide (a.text ++ delta ≠ "") = true := by simp [hempty]
      exact
        { h with
          hasSentText := htext.symm
          content := congrArg (· ++ delta) h.content }

theorem step_of_ne_added (he : e ≠ .added) :
    a.step (.ofCall c e) = { a with call := update a.call c ((a.call c).step c e) } := by
  have hadded : (Step.ofCall c e).added? = none := by
    cases e with
    | added => exact absurd rfl he
    | _ => rfl
  unfold Account.step
  rw [hadded]
  simp [Step.text?, stepPart, Step.part]

theorem same_step (he : e ≠ .added) (hp : (a.call c).step c e = a.call c) : a.step (.ofCall c e) = a := by
  rw [step_of_ne_added he, hp, update_eq_self]

section
variable (h : Simulates answer (s, m) a)
include h

theorem put_piece (hc : c ∈ a.order) :
    m.pieces.put (pieceOf (a.order.idxOf c) c (a.call c)) = m.pieces := put_eq_of_get (h.get_piece hc)

theorem feed_delta_announced (hc : c ∈ a.order) (address : Address)
    (htext : text ≠ "") : ∃ x, feed (s, m) (CallEvent.event c (.delta address text)) = .ok x ∧
      Simulates answer x (a.step (.ofCall c (.delta address text))) := by
  have hcalls := ((h.mem_order c).mp hc).1
  obtain ⟨sent, arguments, hp⟩ := h.announced hc
  have hsize : (arguments ++ text).utf8ByteSize = (sent ++ text).utf8ByteSize := by
    have hsizes := h.sizes c
    rw [hp] at hsizes
    rw [String.utf8ByteSize_append, String.utf8ByteSize_append]
    exact congrArg (· + text.utf8ByteSize) hsizes
  have hfind := (h.findToolForEvent_eq hcalls address .functionArgsDelta text).trans (if_pos hc)
  have hsent : toolArgumentsDelta s (CallEvent.event c (.delta address text)) =
      ({ s with
          toolByKey := s.toolByKey.put (toolOf (a.order.idxOf c) c (.announced (sent ++ text) (arguments ++ text)))
          sawToolCall := true },
        [.toolCall (a.order.idxOf c) c.id "" text]) := by
    have hloud := h.toolDelta_loud hcalls (p := a.call c) htext (a.order.idxOf c)
    rw [hp] at hloud hfind
    unfold toolArgumentsDelta CallEvent.event
    rw [if_neg htext, hfind]
    exact hloud
  refine ⟨_, feed_sent rfl hsent, ?_⟩
  have hpiece : m.collectAll [.toolCall (a.order.idxOf c) c.id "" text] =
      { m with pieces := m.pieces.put (pieceOf (a.order.idxOf c) c (.announced (sent ++ text) (arguments ++ text))) } := by
    change m.collect (.toolCall (a.order.idxOf c) c.id "" text) = _
    simp only [Collected.collect, h.get_piece hc, hp, pieceOf, Call.toolCall, Progress.sent, String.append_empty]
  have hstep : a.step (.ofCall c (.delta address text)) =
      { a with call := update a.call c (.announced (sent ++ text) (arguments ++ text)) } := by
    rw [step_of_ne_added (by simp), hp]
    rfl
  rw [hstep, hpiece]
  exact h.advance hc hsize

theorem feed_delta_waiting (hc : c ∈ answer.calls) (hnew : c ∉ a.order) (address : Address) (htext : text ≠ "") :
    ∃ x, feed (s, m) (CallEvent.event c (.delta address text)) = .ok x ∧
      Simulates answer x (a.step (.ofCall c (.delta address text))) := by
  have hfind := (h.findToolForEvent_eq hc address .functionArgsDelta text).trans (if_neg hnew)
  obtain ⟨byOutput, byItem, hp⟩ := h.waiting hc hnew
  have hOutput : (a.call c).byOutput = byOutput := by rw [hp]; rfl
  have hItem : (a.call c).byItem = byItem := by rw [hp]; rfl
  -- an output index, if there is one, decides where the text waits
  have hbyOutput : Simulates answer
      ({ s with pendingArgsByOutputIndex := s.pendingArgsByOutputIndex.append c.outputIndex text }, m)
      { a with call := update a.call c (.waiting (byOutput ++ text) byItem) } := by
    have hpending := h.byOutput.append (fun _ hd _ he => answer.eq_of_outputIndex hd he) hc htext
    have hsame : update (fun d => (a.call d).byItem) c byItem = fun d => (a.call d).byItem := by
      rw [← hItem]
      exact update_eq_self c _
    rw [hOutput] at hpending
    exact h.wait hc hnew hpending (hsame.symm ▸ h.byItem)
  have hbyItem : Simulates answer
      ({ s with pendingArgsByItemID := s.pendingArgsByItemID.append c.item text }, m)
      { a with call := update a.call c (.waiting byOutput (byItem ++ text)) } := by
    have hpending := h.byItem.append (fun _ hd _ he => answer.eq_of_item hd he) hc htext
    have hsame : update (fun d => (a.call d).byOutput) c byOutput = fun d => (a.call d).byOutput := by
      rw [← hOutput]
      exact update_eq_self c _
    rw [hItem] at hpending
    exact h.wait hc hnew (hsame.symm ▸ h.byOutput) hpending
  rw [step_of_ne_added (by simp), hp]
  cases address with
  | output | both =>
    refine ⟨_, feed_silent rfl ?_, hbyOutput⟩
    unfold CallEvent.event toolArgumentsDelta
    rw [if_neg htext, hfind]
    rfl
  | item =>
    refine ⟨_, feed_silent rfl ?_, hbyItem⟩
    unfold CallEvent.event toolArgumentsDelta
    rw [if_neg htext, hfind]
    exact if_neg (answer.identified c hc)

theorem feed_delta (hc : c ∈ answer.calls) (address : Address) (text : String) :
    ∃ x, feed (s, m) (CallEvent.event c (.delta address text)) = .ok x ∧
      Simulates answer x (a.step (.ofCall c (.delta address text))) := by
  by_cases hempty : text = ""
  · subst hempty
    have hsent : toolArgumentsDelta s (CallEvent.event c (.delta address "")) = (s, []) := rfl
    have hsame : (a.call c).step c (.delta address "") = a.call c := by
      cases a.call c <;> cases address <;> simp [Progress.step]
    refine ⟨_, feed_silent rfl hsent, ?_⟩
    rw [same_step (by simp) hsame]
    exact h
  · by_cases hmem : c ∈ a.order
    · exact h.feed_delta_announced hmem address hempty
    · exact h.feed_delta_waiting hc hmem address hempty

theorem feed_argsDone (hc : c ∈ a.order) (address : Address) :
    ∃ x, feed (s, m) (CallEvent.event c (.argsDone address)) = .ok x ∧
      Simulates answer x (a.step (.ofCall c (.argsDone address))) := by
  have hcalls := ((h.mem_order c).mp hc).1
  have hfind := (h.findToolForEvent_eq hcalls address .functionArgsDone "").trans (if_pos hc)
  have hsent : flushPendingTool s (CallEvent.event c (.argsDone address)) = (s, []) := by
    unfold flushPendingTool CallEvent.event
    rw [hfind]
    dsimp only
    rw [toolDelta_quiet (h.sizes c), put_eq_of_get (h.get_tool hc)]
  have hsame : (a.call c).step c (.argsDone address) = a.call c := by cases a.call c <;> rfl
  refine ⟨_, feed_silent rfl hsent, ?_⟩
  rw [same_step (by simp) hsame]
  exact h

end

theorem isTool_output (c : Call) (arguments : String) : isResponsesToolOutputType (c.output arguments).type = true := by
  simp [isResponsesToolOutputType, Call.output]

def identify (c : Call) (tool : Tool) : Tool :=
  { tool with
    callID := if trimSpace c.callID ≠ "" then trimSpace c.callID else if tool.callID = "" then c.item else tool.callID
    name := if trimSpace c.name ≠ "" then trimSpace c.name else tool.name }

def lookUp (s : StreamState) (c : Call) : StreamState × Tool :=
  let (s, tool) := toolFor s (.output c.outputIndex) ""
  let (s, tool) := linkOutputIndex s tool (some c.outputIndex)
  linkItemID s tool c.item

theorem outputItem_indexed {s' : StreamState} {tool : Tool} (hc : c ∈ answer.calls) (type : EventType)
    (arguments : String) (hlook : lookUp s c = (s', tool)) :
    outputItem s ⟨type, none, "", some (c.output arguments), some c.outputIndex, ""⟩ =
      toolDelta s' { identify c tool with arguments := if arguments ≠ "" then arguments else tool.arguments } "" := by
  have hitem : trimSpace c.itemID ≠ "" := answer.identified c hc
  have hid : responseStreamEventItemID ⟨type, none, "", some (c.output arguments), some c.outputIndex, ""⟩ = c.item :=
    if_pos hitem
  have hensure : ensureToolForEvent s ⟨type, none, "", some (c.output arguments), some c.outputIndex, ""⟩
      (c.output arguments) = some (s', identify c tool) := by
    unfold lookUp at hlook
    unfold ensureToolForEvent
    rw [hid]
    simp only [keyForEvent, some_or, map_some] at hlook ⊢
    rw [hlook]
    rfl
  unfold outputItem toolItem
  dsimp only
  rw [hensure]
  rfl

theorem identify_toolOf (index : ℕ) (p : Progress) : identify c (toolOf index c p) = toolOf index c p := by
  have hcallID : (if trimSpace c.callID ≠ "" then trimSpace c.callID else if c.id = "" then c.item else c.id) = c.id := by
    unfold Call.id
    split <;> simp_all
  have hname : (if trimSpace c.name ≠ "" then trimSpace c.name else trimSpace c.name) = trimSpace c.name := ite_self _
  have hcall : (toolOf index c p).callID = c.id := by rw [toolOf]
  have htool : (toolOf index c p).name = trimSpace c.name := by rw [toolOf]
  rw [identify, hcall, hcallID, htool, hname, ← htool, ← hcall]

theorem lookUp_again (h : Simulates answer (s, m) a) (hc : c ∈ a.order) :
    lookUp s c = (s, toolOf (a.order.idxOf c) c (a.call c)) := by
  have hcalls := ((h.mem_order c).mp hc).1
  have hitem : c.item ≠ "" := answer.identified c hcalls
  obtain ⟨sent, arguments, hp⟩ := h.announced hc
  have hindex : s.outputIndexToKey c.outputIndex = some (.output c.outputIndex) := by
    rw [h.outputIndexToKey c hcalls, hp]
    rfl
  have hid : s.itemIDToKey c.item = some (.output c.outputIndex) := by
    rw [h.itemIDToKey c hcalls, hp]
    rfl
  have hOutput : s.pendingArgsByOutputIndex.read c.outputIndex = "" := by
    rw [h.byOutput.read hcalls, hp]
    rfl
  have hItem : s.pendingArgsByItemID.read c.item = "" := by
    rw [h.byItem.read hcalls, hp]
    rfl
  have hsameIndex : update s.outputIndexToKey c.outputIndex (some (.output c.outputIndex)) =
      s.outputIndexToKey := by
    rw [← hindex, update_eq_self]
  have hsameID : update s.itemIDToKey c.item (some (.output c.outputIndex)) = s.itemIDToKey := by
    rw [← hid, update_eq_self]
  unfold lookUp linkItemID
  rw [toolFor, h.get_tool hc]
  simp only [linkOutputIndex, if_neg hitem, hOutput, hItem, toolOf, hsameIndex, hsameID, String.append_empty, if_true]

theorem toolOf_arguments (index : ℕ) (sent arguments arguments' : String) :
    { toolOf index c (.announced sent arguments) with arguments := arguments' } =
      toolOf index c (.announced sent arguments') := by
  simp only [toolOf, Progress.sent, Progress.arguments]

theorem feed_itemDone (h : Simulates answer (s, m) a) (hc : c ∈ a.order)
    (hsize : (a.call c).sent.utf8ByteSize = c.arguments.utf8ByteSize) :
    ∃ x, feed (s, m) (CallEvent.event c (.itemDone true)) = .ok x ∧
      Simulates answer x (a.step (.ofCall c (.itemDone true))) := by
  have hcalls := ((h.mem_order c).mp hc).1
  obtain ⟨sent, arguments, hp⟩ := h.announced hc
  have hsizes := h.sizes c
  rw [hp] at hsize hsizes
  -- the item's arguments take the place of those collected
  let full := if c.arguments ≠ "" then c.arguments else arguments
  have hfull : full.utf8ByteSize = sent.utf8ByteSize := by
    change (if c.arguments ≠ "" then c.arguments else arguments).utf8ByteSize = _
    split
    · exact hsize.symm
    · exact hsizes
  have hsent : outputItem s (CallEvent.event c (.itemDone true)) =
      ({ s with toolByKey := s.toolByKey.put (toolOf (a.order.idxOf c) c (.announced sent full)) }, []) := by
    have hitem := outputItem_indexed hcalls .outputItemDone c.arguments (h.lookUp_again hc)
    rw [identify_toolOf] at hitem
    refine hitem.trans ?_
    have hquiet := toolDelta_quiet (s := s) (c := c) (p := .announced sent full) hfull (a.order.idxOf c)
    rw [hp, toolOf_arguments]
    exact hquiet
  have hstep : a.step (.ofCall c (.itemDone true)) =
      { a with call := update a.call c (.announced sent full) } := by
    rw [step_of_ne_added (by simp), hp]
    rfl
  refine ⟨_, feed_silent rfl hsent, ?_⟩
  have hadvance := h.advance hc hfull
  have hpiece : pieceOf (a.order.idxOf c) c (.announced sent full) = pieceOf (a.order.idxOf c) c (a.call c) := by
    rw [hp]
    rfl
  have hsaw : s.sawToolCall = true := h.sawToolCall.trans (decide_eq_true (ne_nil_of_mem hc))
  rw [hpiece, h.put_piece hc] at hadvance
  rw [hstep]
  exact { hadvance with sawToolCall := hsaw.trans hadvance.sawToolCall }

/-! ## Announcing a call -/

theorem rows_append {ρ : Type} (f : ℕ → Call → Progress → ρ) {order : List Call} (hnew : c ∉ order) (p : Progress) :
    ((order ++ [c]).map fun d => f ((order ++ [c]).idxOf d) d (update call c p d)) =
      (order.map fun d => f (order.idxOf d) d (call d)) ++ [f order.length c p] := by
  rw [map_append]
  congr 1
  · refine map_congr_left fun d hd => ?_
    have hdc : d ≠ c := fun heq => hnew (heq ▸ hd)
    rw [idxOf_append_of_mem hd, update_of_ne hdc]
  · rw [map_singleton, idxOf_append_of_notMem hnew, idxOf_cons_self, Nat.add_zero,
      update_self]

theorem read_update_eq {β : Type} (f : Progress → β) (call : Call → Progress) (p : Progress) :
    (fun d => f (update call c p d)) = update (fun d => f (call d)) c (f p) := by
  funext d
  exact apply_update (fun _ => f) call c p d

theorem link_update {κ : Type} [DecidableEq κ] {links : κ → Option Key} {key : Call → κ}
    (hkey : ∀ d ∈ answer.calls, ∀ e ∈ answer.calls, key d = key e → d = e)
    (hlinks : ∀ d ∈ answer.calls, links (key d) = (a.call d).key d) (hc : c ∈ answer.calls) (sent arguments : String) :
    ∀ d ∈ answer.calls, update links (key c) (some (.output c.outputIndex)) (key d) =
      (update a.call c (.announced sent arguments) d).key d := by
  intro d hd
  by_cases hdc : d = c
  · subst hdc
    rw [update_self, update_self]
    rfl
  · rw [update_of_ne fun heq => hdc (hkey d hd c hc heq), update_of_ne hdc]
    exact hlinks d hd

def linked (s : StreamState) (c : Call) : StreamState :=
  { s with
    nextToolIndex := s.nextToolIndex + 1
    toolByKey := s.toolByKey.add (Tool.fresh (.output c.outputIndex) s.nextToolIndex "")
    outputIndexToKey := Function.update s.outputIndexToKey c.outputIndex (some (.output c.outputIndex))
    itemIDToKey := Function.update s.itemIDToKey c.item (some (.output c.outputIndex))
    pendingArgsByOutputIndex := if s.pendingArgsByOutputIndex.read c.outputIndex = "" then
      s.pendingArgsByOutputIndex else s.pendingArgsByOutputIndex.remove c.outputIndex
    pendingArgsByItemID := if s.pendingArgsByItemID.read c.item = "" then
      s.pendingArgsByItemID else s.pendingArgsByItemID.remove c.item }

theorem itemIDToKey_linked (s : StreamState) (c : Call) :
    (linked s c).itemIDToKey = update s.itemIDToKey c.item (some (.output c.outputIndex)) := rfl

theorem announce (h : Simulates answer (s, m) a) (hc : c ∈ answer.calls) (hnew : c ∉ a.order)
    {tools : Table Tool Tool.key} {pieces : Table Piece Piece.index}
    (htools : tools.rows = s.toolByKey.rows ++ [toolOf a.order.length c (.announced text text)])
    (hpieces : pieces.rows = m.pieces.rows ++ [pieceOf a.order.length c (.announced text text)]) :
    Simulates answer ({ linked s c with toolByKey := tools, sawToolCall := true },
        { m with pieces := pieces })
      { a with order := a.order ++ [c], call := update a.call c (.announced text text) } := by
  have hindices := fun d (hd : d ∈ answer.calls) e (he : e ∈ answer.calls) => answer.eq_of_outputIndex hd he
  have hitems := fun d (hd : d ∈ answer.calls) e (he : e ∈ answer.calls) => answer.eq_of_item hd he
  refine
    { h with
      sawToolCall := ?_
      nextToolIndex := ?_
      tools := ?_
      outputIndexToKey := link_update hindices h.outputIndexToKey hc text text
      itemIDToKey := ?_
      byOutput := ?_
      byItem := ?_
      pieces := ?_
      nodup := ?_
      mem_order := ?_
      sizes := h.sizes_update rfl }
  · exact (decide_eq_true (append_ne_nil_of_right_ne_nil _ (cons_ne_nil _ _))).symm
  · change s.nextToolIndex + 1 = (a.order ++ [c]).length
    rw [length_append, length_singleton, h.nextToolIndex]
  · exact (htools.trans (congrArg (· ++ _) h.tools)).trans (rows_append toolOf hnew _).symm
  · intro d hd
    rw [← link_update hitems h.itemIDToKey hc text text d hd, ← itemIDToKey_linked]
  · rw [read_update_eq Progress.byOutput]
    exact h.byOutput.take hindices hc
  · rw [read_update_eq Progress.byItem]
    exact h.byItem.take hitems hc
  · exact (hpieces.trans (congrArg (· ++ _) h.pieces)).trans (rows_append pieceOf hnew _).symm
  · exact nodup_append_comm.mp (nodup_cons.mpr ⟨hnew, h.nodup⟩)
  · intro d
    rw [mem_append, mem_singleton]
    dsimp only
    by_cases hdc : d = c
    · subst hdc
      rw [update_self]
      exact ⟨fun _ => ⟨hc, some_ne_none _⟩, fun _ => .inr rfl⟩
    · rw [update_of_ne hdc, ← h.mem_order d]
      exact ⟨fun hor => hor.resolve_right hdc, .inl⟩

theorem toolDelta_new (hstart : s.sentStart = true) (hc : c ∈ answer.calls) (index : ℕ) (text : String) :
    toolDelta s ⟨.output c.outputIndex, c.id, c.item, trimSpace c.name, text, index, false, false, 0⟩ "" = ({ s with
          toolByKey := s.toolByKey.put (toolOf index c (.announced text text))
          sawToolCall := true },
        [.toolCall index c.id (trimSpace c.name) text]) := by
  obtain ⟨htrim, hne⟩ := answer.id_ne hc
  have hargs : (⟨.output c.outputIndex, c.id, c.item, trimSpace c.name, text, index, false, false, 0⟩ : Tool).argsDelta
      "" = text := by
    unfold Tool.argsDelta
    split
    · exact sliceFrom_zero text
    · next hnone =>
      have hsize : text.utf8ByteSize = 0 := by
        by_contra hpos
        exact hnone ⟨rfl, Nat.pos_of_ne_zero hpos⟩
      exact (String.utf8ByteSize_eq_zero_iff.mp hsize).symm
  unfold toolDelta
  rw [hargs]
  rw [ensureStart_started hstart]
  refine Prod.ext ?_ ?_
  · simp [Tool.afterSending, toolOf, Progress.sent, Progress.arguments]
  · simp [Tool.chunk, htrim, hne]

theorem feed_added (h : Simulates answer (s, m) a) (hc : c ∈ answer.calls) (hnew : c ∉ a.order) :
    ∃ x, feed (s, m) (CallEvent.event c .added) = .ok x ∧ Simulates answer x (a.step (.ofCall c .added)) := by
  obtain ⟨byOutput, byItem, hp⟩ := h.waiting hc hnew
  have hitem : c.item ≠ "" := answer.identified c hc
  have hOutput : s.pendingArgsByOutputIndex.read c.outputIndex = byOutput := by
    rw [h.byOutput.read hc, hp]
    rfl
  have hItem : s.pendingArgsByItemID.read c.item = byItem := by
    rw [h.byItem.read hc, hp]
    rfl
  have hget := h.get_tool_waiting hc hnew
  have hlook : lookUp s c =
      (linked s c, ⟨.output c.outputIndex, "", c.item, "", byOutput ++ byItem, s.nextToolIndex, false, false, 0⟩) := by
    unfold lookUp linkItemID
    rw [toolFor, hget, ← hOutput, ← hItem]
    simp only [linkOutputIndex, if_neg hitem, Tool.fresh, String.empty_append]
    rfl
  have hevent := outputItem_indexed hc .outputItemAdded "" hlook
  have hcallID : (if trimSpace c.callID ≠ "" then trimSpace c.callID else if "" = "" then c.item else "") = c.id := by
    unfold Call.id
    split <;> simp_all
  have hname : (if trimSpace c.name ≠ "" then trimSpace c.name else "") = trimSpace c.name := by
    split <;> simp_all
  have hsent : outputItem s (CallEvent.event c .added) =
      ({ linked s c with
          toolByKey := (linked s c).toolByKey.put
            (toolOf s.nextToolIndex c (.announced (byOutput ++ byItem) (byOutput ++ byItem)))
          sawToolCall := true },
        [.toolCall s.nextToolIndex c.id (trimSpace c.name) (byOutput ++ byItem)]) := by
    have hnewTool := toolDelta_new (s := linked s c) h.sentStart hc s.nextToolIndex (byOutput ++ byItem)
    refine hevent.trans (Eq.trans ?_ hnewTool)
    unfold identify
    dsimp only
    rw [hcallID, hname]
    rfl
  have hstep : a.step (.ofCall c .added) =
      { a with
        order := a.order ++ [c]
        call := update a.call c (.announced (byOutput ++ byItem) (byOutput ++ byItem)) } := by
    unfold Account.step
    simp [Step.text?, Step.added?, stepPart, Step.part, hp, Progress.step]
  have hpieces : m.collectAll [.toolCall s.nextToolIndex c.id (trimSpace c.name) (byOutput ++ byItem)] =
      { m with
        pieces := m.pieces.add (pieceOf a.order.length c (.announced (byOutput ++ byItem) (byOutput ++ byItem))) } := by
    change m.collect (.toolCall s.nextToolIndex c.id (trimSpace c.name) (byOutput ++ byItem)) = _
    have hnext : s.nextToolIndex = a.order.length := h.nextToolIndex
    simp only [Collected.collect, hnext, h.get_piece_waiting]
    rfl
  refine ⟨_, feed_sent rfl hsent, ?_⟩
  rw [hstep, hpieces]
  refine h.announce hc hnew ?_ ?_
  · have hnext : s.nextToolIndex = a.order.length := h.nextToolIndex
    rw [hnext]
    exact rows_put_add hget rfl
  · exact rows_add h.get_piece_waiting

/-! ## Steps and runs -/

theorem feed_step (h : Simulates answer (s, m) a) (st : Step) (hok : Account.ok answer a st) :
    ∃ x, feed (s, m) st.event = .ok x ∧ Simulates answer x (a.step st) := by
  cases st with
  | text delta => exact h.feed_text delta
  | ofCall c e =>
    have hc : c ∈ answer.calls := hok.2 (c, e) rfl
    have he : Progress.ok c (a.call c) e := hok.1 (c, e) rfl
    have hmem := h.mem_order c
    cases hp : a.call c with
    | waiting byOutput byItem =>
      rw [hp] at he hmem
      have hnew : c ∉ a.order := fun hin => (hmem.mp hin).2 rfl
      cases e with
      | delta address text => exact h.feed_delta hc address text
      | added => exact h.feed_added hc hnew
      | argsDone address => exact he.elim
      | itemDone indexed => exact he.elim
    | announced sent arguments =>
      rw [hp] at he hmem
      have hin : c ∈ a.order := hmem.mpr ⟨hc, some_ne_none _⟩
      cases e with
      | delta address text => exact h.feed_delta hc address text
      | added => exact he.elim
      | argsDone address => exact h.feed_argsDone hin address
      | itemDone indexed =>
        obtain ⟨hindexed, hsize⟩ := he
        rw [hindexed]
        refine h.feed_itemDone hin ?_
        rw [hp]
        exact hsize

theorem feed_steps (h : Simulates answer (s, m) a) {steps : List Step}
    (hok : Along Account.step (Account.ok answer) a steps) :
    ∃ x, (steps.map Step.event).foldlM feed (s, m) = .ok x ∧ Simulates answer x (run Account.step a steps) := by
  have hkeep : ∀ x b st, Simulates answer x b → Account.ok answer b st →
      ∃ x', feed x (Step.event st) = .ok x' ∧ Simulates answer x' (b.step st) := fun _ _ st hx hst => hx.feed_step st hst
  rw [foldlM_map]
  exact foldlM_simulates hkeep h hok

theorem start (answer : Answer) (includeUsage : Bool) : Simulates answer
      ({ newResponsesToChatStreamState includeUsage with sentStart := true }, Collected.none) Account.none where
  sentStart := rfl
  finalized := rfl
  hasSentText := rfl
  sawToolCall := rfl
  nextToolIndex := rfl
  tools := rfl
  outputIndexToKey := fun _ _ => rfl
  itemIDToKey := fun _ _ => rfl
  byOutput := ⟨fun _ _ => rfl, fun _ hmem => absurd hmem not_mem_nil⟩
  byItem := ⟨fun _ _ => rfl, fun _ hmem => absurd hmem not_mem_nil⟩
  content := rfl
  reasoning := rfl
  finishReason := rfl
  pieces := rfl
  nodup := nodup_nil
  mem_order := fun _ => ⟨fun hmem => absurd hmem not_mem_nil, fun hand => absurd rfl hand.2⟩
  sizes := fun _ => rfl

end Simulates

end HotAI.Convert
