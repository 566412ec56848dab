import HotAI.Lib.Run

/-! # Chunks of a chat stream and the loop that relays them

`OaiStreamHandler` hands a chunk on only when the next one has arrived, so the last chunk is left for the code after
the loop. -/
namespace HotAI.Stream
open HotAI.Lib

structure FunctionResponse where
  name : String
  arguments : String
deriving DecidableEq, Repr

structure ToolCallResponse where
  index : Option ℕ
  id : String
  function : FunctionResponse
deriving DecidableEq, Repr

structure Delta where
  content : Option String
  reasoningContent : Option String
  reasoning : Option String
  toolCalls : List ToolCallResponse
deriving DecidableEq, Repr

def Delta.getContentString (d : Delta) : String := d.content.getD ""

def Delta.getReasoningContent (d : Delta) : String := (d.reasoningContent <|> d.reasoning).getD ""

structure Choice where
  index : ℕ
  delta : Delta
  finishReason : Option String
deriving DecidableEq, Repr

structure Usage where
  promptTokens : ℤ
  completionTokens : ℤ
  cachedTokens : ℤ
  cachedCreationTokens : ℤ
  claudeCacheCreation5mTokens : ℤ
  claudeCacheCreation1hTokens : ℤ
deriving DecidableEq, Repr

structure Chunk where
  id : String
  created : ℤ
  model : String
  systemFingerprint : Option String
  choices : List Choice
  usage : Option Usage
deriving DecidableEq, Repr

def validUsage : Option Usage → Bool
  | none => false
  | some usage => usage.promptTokens ≠ 0 || usage.completionTokens ≠ 0

/-! ## The loop -/

variable {σ : Type*}

/-- `lastStreamData` and `secondLastStreamData`, around what the client's format keeps. -/
structure Scan (σ : Type*) where
  inner : σ
  last : Option Chunk
  secondLast : Option Chunk

/-- The callback of `StreamScannerHandler`. -/
def Scan.data (handleStreamFormat : σ → Chunk → σ) (isAudioModel : Bool) (s : Scan σ) (chunk : Chunk) : Scan σ where
  inner := match s.last with
    | none => s.inner
    | some last => handleStreamFormat s.inner last
  last := some chunk
  secondLast := if isAudioModel && s.last.isSome then s.last else s.secondLast

def scan (handleStreamFormat : σ → Chunk → σ) (isAudioModel : Bool) (init : σ) (chunks : List Chunk) : Scan σ :=
  run (Scan.data handleStreamFormat isAudioModel) ⟨init, none, none⟩ chunks

theorem scan_snoc (f : σ → Chunk → σ) (isAudioModel : Bool) (init : σ) (chunks : List Chunk) (last : Chunk) :
    (scan f isAudioModel init (chunks ++ [last])).inner = chunks.foldl f init ∧
      (scan f isAudioModel init (chunks ++ [last])).last = some last := by
  refine ⟨?_, by rw [scan, run_append]; rfl⟩
  induction chunks using List.reverseRecOn generalizing last with
  | nil => rfl
  | append_singleton chunks chunk ih =>
    -- the chunk before the last is handed on when the last one arrives
    have hlast : (scan f isAudioModel init (chunks ++ [chunk])).last = some chunk := by rw [scan, run_append]; rfl
    have hstep : (scan f isAudioModel init (chunks ++ [chunk] ++ [last])).inner =
        f (scan f isAudioModel init (chunks ++ [chunk])).inner chunk := by
      rw [scan, run_append, ← scan, run_cons, run_nil, Scan.data, hlast]
    rw [hstep, ih chunk, List.foldl_append, List.foldl_cons, List.foldl_nil]

/-- The usage at the end of a stream and whether the upstream sent it. The estimate counts the relayed text. -/
def streamUsage (estimate : Usage) (isAudioModel : Bool) (s : Scan σ) : Usage × Bool :=
  let lastUsage := s.last.bind Chunk.usage
  let secondLastUsage := s.secondLast.bind Chunk.usage
  match lastUsage, validUsage lastUsage with
  | some usage, true => (usage, true)
  | _, _ => match secondLastUsage, isAudioModel && validUsage secondLastUsage with
      | some usage, true => (usage, true)
      | _, _ => (estimate, false)

end HotAI.Stream
