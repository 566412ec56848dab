import HotAI.Convert.Responses

/-! # A response and the streams that deliver it

The client of a stream appends texts and collects tool calls by their index. What comes out is compared with the conversion
of the whole response. -/
namespace HotAI.Convert
open HotAI.Lib

/-! ## The client -/

structure Piece where
  index : ℕ
  call : ToolCall
deriving DecidableEq, Repr

structure Collected where
  content : String
  reasoning : String
  pieces : Table Piece Piece.index
  finishReason : Option String

namespace Collected

def none : Collected := ⟨"", "", Table.empty, .none⟩

def collect (m : Collected) : Chunk → Collected
  | .start | .usage => m
  | .content delta => { m with content := m.content ++ delta }
  | .reasoning delta => { m with reasoning := m.reasoning ++ delta }
  | .toolCall index id name arguments => match m.pieces.get index with
      | .none => { m with pieces := m.pieces.add ⟨index, ⟨id, name, arguments⟩⟩ }
      | some piece =>
          let call := ⟨id, piece.call.name ++ name, piece.call.arguments ++ arguments⟩
          { m with pieces := m.pieces.put ⟨index, call⟩ }
  | .finish reason => { m with finishReason := some reason }

def collectAll (m : Collected) (chunks : List Chunk) : Collected := chunks.foldl collect m

def message (m : Collected) : ChatMessage where
  content := m.content
  reasoning := m.reasoning
  toolCalls := (m.pieces.rows.insertionSort fun a b => a.index ≤ b.index).map Piece.call
  finishReason := m.finishReason

end Collected

def feed (x : StreamState × Collected) (event : Event) : Except String (StreamState × Collected) :=
  match responsesStreamEventToChatChunks x.1 event with
  | (s, .ok chunks) => .ok (s, x.2.collectAll chunks)
  | (_, .error text) => .error text

def streamed (includeUsage : Bool) (events : List Event) : Except String ChatMessage :=
  (events.foldlM feed (newResponsesToChatStreamState includeUsage, Collected.none)).map fun x => x.2.message

/-! ## The response -/

structure Call where
  outputIndex : ℤ
  itemID : String
  callID : String
  name : String
  arguments : String
deriving DecidableEq, Repr

namespace Call

def output (c : Call) (arguments : String) : Output :=
  ⟨"function_call", c.itemID, "", [], c.callID, c.name, arguments⟩

def item (c : Call) : String := trimSpace c.itemID

def id (c : Call) : String := if trimSpace c.callID = "" then c.item else trimSpace c.callID

def toolCall (c : Call) (arguments : String) : ToolCall := ⟨c.id, trimSpace c.name, arguments⟩

end Call

inductive Item where
  | message (id : String) (texts : List String)
  | call (c : Call)
deriving DecidableEq, Repr

namespace Item

def output : Item → Output
  | .message id texts => ⟨"message", id, "assistant", texts.map fun text => ⟨"output_text", text⟩, "", "", ""⟩
  | .call c => c.output c.arguments

def call? : Item → Option Call
  | .message _ _ => none
  | .call c => some c

def text : Item → String
  | .message _ texts => concat texts
  | .call _ => ""

end Item

/-- A response of assistant messages and function calls, ids without the white space around them. -/
structure Answer where
  items : List Item
  status : String
  incompleteReason : Option String
  indices : ((items.filterMap Item.call?).map Call.outputIndex).Nodup
  itemIDs : ((items.filterMap Item.call?).map Call.item).Nodup
  identified : ∀ c ∈ items.filterMap Item.call?, c.item ≠ ""
  callIDs : ((items.filterMap Item.call?).map Call.id).Nodup

namespace Answer

def calls (answer : Answer) : List Call := answer.items.filterMap Item.call?

def response (answer : Answer) : Response :=
  ⟨answer.items.map Item.output, answer.status, answer.incompleteReason⟩

/-- The response of the terminal event, which may repeat the output. -/
def last (answer : Answer) (repeated : Bool) : Response :=
  if repeated then answer.response else { answer.response with output := [] }

def text (answer : Answer) : String := concat (answer.items.map Item.text)

variable {c d : Call}

theorem eq_of_outputIndex {answer : Answer} (hc : c ∈ answer.calls) (hd : d ∈ answer.calls)
    (h : c.outputIndex = d.outputIndex) : c = d :=
  List.inj_on_of_nodup_map answer.indices hc hd h

theorem eq_of_item {answer : Answer} (hc : c ∈ answer.calls) (hd : d ∈ answer.calls) (h : c.item = d.item) : c = d :=
  List.inj_on_of_nodup_map answer.itemIDs hc hd h

theorem eq_of_id {answer : Answer} (hc : c ∈ answer.calls) (hd : d ∈ answer.calls) (h : c.id = d.id) : c = d :=
  List.inj_on_of_nodup_map answer.callIDs hc hd h

theorem nodup_calls (answer : Answer) : answer.calls.Nodup := List.Nodup.of_map _ answer.indices

end Answer

/-! ## Its events -/

inductive Address where
  | output
  | item
  | both
deriving DecidableEq, Repr

inductive CallEvent where
  | delta (address : Address) (text : String)
  | added
  | argsDone (address : Address)
  | itemDone (indexed : Bool)
deriving DecidableEq, Repr

inductive Step where
  | text (delta : String)
  | ofCall (c : Call) (e : CallEvent)
deriving DecidableEq, Repr

namespace Address

def outputIndex (c : Call) : Address → Option ℤ
  | .output | .both => some c.outputIndex
  | .item => none

def itemID (c : Call) : Address → String
  | .output => ""
  | .item | .both => c.itemID

end Address

def CallEvent.event (c : Call) : CallEvent → Event
  | .delta address text => ⟨.functionArgsDelta, none, text, none, address.outputIndex c, address.itemID c⟩
  | .added => ⟨.outputItemAdded, none, "", some (c.output ""), some c.outputIndex, ""⟩
  | .argsDone address => ⟨.functionArgsDone, none, "", none, address.outputIndex c, address.itemID c⟩
  | .itemDone indexed => ⟨.outputItemDone, none, "", some (c.output c.arguments),
      if indexed then some c.outputIndex else none, ""⟩

namespace Step

def event : Step → Event
  | .text delta => ⟨.outputTextDelta, none, delta, none, none, ""⟩
  | .ofCall c e => e.event c

def part : Step → Option (Call × CallEvent)
  | .text _ => none
  | .ofCall c e => some (c, e)

def text? : Step → Option String
  | .text delta => some delta
  | .ofCall _ _ => none

def added? : Step → Option Call
  | .ofCall c .added => some c
  | _ => none

end Step

/-- How one call is delivered: deltas before its item is announced and after, then the events that close it. -/
structure CallDelivery where
  early : List (Address × String)
  late : List (Address × String)
  argsDone : Address
  indexed : Bool
deriving DecidableEq, Repr

def CallDelivery.events (d : CallDelivery) : List CallEvent :=
  d.early.map (fun x => .delta x.1 x.2) ++ .added :: d.late.map (fun x => .delta x.1 x.2) ++
    [.argsDone d.argsDone, .itemDone d.indexed]

/-- The events of the calls and the text deltas in any order that keeps each call's events in theirs. -/
structure Delivery (answer : Answer) where
  steps : List Step
  ofCall : Call → CallDelivery
  known : ∀ step ∈ steps, ∀ x ∈ step.part, x.1 ∈ answer.calls
  events_ofCall : ∀ c ∈ answer.calls, steps.filterMap (partOf Step.part c) = (ofCall c).events
  arguments : ∀ c ∈ answer.calls, concat (((ofCall c).early ++ (ofCall c).late).map Prod.snd) = c.arguments
  texts : concat (steps.filterMap Step.text?) = answer.text

namespace Delivery

variable {answer : Answer}

def added (d : Delivery answer) : List Call := d.steps.filterMap Step.added?

def events (d : Delivery answer) (repeated : Bool) : List Event :=
  ⟨.created, none, "", none, none, ""⟩ :: d.steps.map Step.event ++
    [⟨.completed, some (answer.last repeated), "", none, none, ""⟩]

end Delivery

/-- The early deltas, those with an output index first, make the same text as in the order in which they
arrive. -/
def CallDelivery.earlyInOrder (d : CallDelivery) : Prop :=
  concat ((d.early.filter fun x => x.1 ≠ .item).map Prod.snd) ++
      concat ((d.early.filter fun x => x.1 = .item).map Prod.snd) =
    concat (d.early.map Prod.snd)

instance (d : CallDelivery) : Decidable d.earlyInOrder := inferInstanceAs (Decidable (_ = _))

end HotAI.Convert
