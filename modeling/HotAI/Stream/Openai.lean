import HotAI.Stream.Chunks

/-! # Relaying a chat stream to an OpenAI client (`relay/channel/openai/relay-openai.go`, `helper.go`)

Without forced format and without thinking turned into content every chunk is passed on as it is, except that the last
one may be held back. -/
namespace HotAI.Stream
open HotAI.Lib List

/-- What the client reads: a chunk or `[DONE]`. -/
inductive Sent where
  | data (chunk : Chunk)
  | done
deriving DecidableEq, Repr

def sendStreamData (out : List Sent) (chunk : Chunk) : List Sent := out ++ [.data chunk]

def Choice.hasText (choice : Choice) : Bool :=
  choice.delta.getContentString ≠ "" || choice.delta.getReasoningContent ≠ ""

/-- `shouldSendLastResp` as `handleLastResponse` leaves it. -/
def shouldSendLastResp (shouldIncludeUsage : Bool) (last : Chunk) : Bool :=
  if validUsage last.usage && !shouldIncludeUsage then last.choices.any Choice.hasText else true

def generateFinalUsageResponse (last : Option Chunk) (model : String) (usage : Usage) : Chunk where
  id := (last.map Chunk.id).getD ""
  created := (last.map Chunk.created).getD 0
  model := (last.map Chunk.model).getD model
  systemFingerprint := some ((last.bind Chunk.systemFingerprint).getD "")
  choices := []
  usage := some usage

/-- `OaiStreamHandler` for `RelayFormatOpenAI`. -/
def oaiStreamHandler (shouldIncludeUsage isAudioModel : Bool) (model : String) (estimate : Usage)
    (chunks : List Chunk) : List Sent :=
  let s := scan sendStreamData isAudioModel [] chunks
  let out := match s.last with
    | none => s.inner
    | some last => if shouldSendLastResp shouldIncludeUsage last then sendStreamData s.inner last else s.inner
  let (usage, containStreamUsage) := streamUsage estimate isAudioModel s
  let out := if shouldIncludeUsage && !containStreamUsage
    then out ++ [.data (generateFinalUsageResponse s.last model usage)] else out
  out ++ [.done]

/-! ## What arrives -/

def Sent.choices : Sent → List Choice
  | .data chunk => chunk.choices
  | .done => []

/-- Every upstream choice once and in order, then one `[DONE]`; only choiceless chunks with a usage nobody asked for are
missing. -/
structure Whole (shouldIncludeUsage : Bool) (upstream : List Chunk) (sent : List Sent) : Prop where
  choices : sent.flatMap Sent.choices = upstream.flatMap Chunk.choices
  done : ∃ body : List Chunk, sent = body.map .data ++ [.done]
  withheld : ∀ chunk ∈ upstream, .data chunk ∉ sent →
    shouldIncludeUsage = false ∧ chunk.choices = [] ∧ validUsage chunk.usage = true

theorem foldl_sendStreamData (out : List Sent) (chunks : List Chunk) :
    chunks.foldl sendStreamData out = out ++ chunks.map .data := by
  induction chunks generalizing out with
  | nil => simp
  | cons chunk chunks ih => simp [ih, sendStreamData]

def usageChunk (shouldIncludeUsage isAudioModel : Bool) (model : String) (estimate : Usage) (chunks : List Chunk) :
    List Chunk :=
  let s := scan sendStreamData isAudioModel [] chunks
  if shouldIncludeUsage && !(streamUsage estimate isAudioModel s).2
  then [generateFinalUsageResponse s.last model (streamUsage estimate isAudioModel s).1] else []

variable (shouldIncludeUsage isAudioModel : Bool)

theorem usageChunk_choices (model : String) (estimate : Usage)
    (chunks : List Chunk) : (usageChunk shouldIncludeUsage isAudioModel model estimate chunks).flatMap Chunk.choices = [] := by
  unfold usageChunk
  dsimp only
  split <;> rfl

theorem oaiStreamHandler_nil (model : String) (estimate : Usage) :
    oaiStreamHandler shouldIncludeUsage isAudioModel model estimate [] =
      (usageChunk shouldIncludeUsage isAudioModel model estimate []).map .data ++ [.done] := by
  simp only [oaiStreamHandler, usageChunk]
  split <;> rfl

theorem oaiStreamHandler_snoc (model : String) (estimate : Usage) (chunks : List Chunk) (last : Chunk) :
    oaiStreamHandler shouldIncludeUsage isAudioModel model estimate (chunks ++ [last]) =
      (chunks ++ (if shouldSendLastResp shouldIncludeUsage last then [last] else []) ++
        usageChunk shouldIncludeUsage isAudioModel model estimate (chunks ++ [last])).map .data ++ [.done] := by
  obtain ⟨hinner, hlast⟩ := scan_snoc sendStreamData isAudioModel [] chunks last
  simp only [oaiStreamHandler, usageChunk, hinner, hlast, foldl_sendStreamData, nil_append]
  split <;> split <;> simp [sendStreamData]

theorem flatMap_data (body : List Chunk) :
    (body.map Sent.data ++ [Sent.done]).flatMap Sent.choices = body.flatMap Chunk.choices := by
  rw [flatMap_append, flatMap_map]
  exact append_nil _

/-- The last chunk may be held back: usage was asked for, it has none, it has no choice, or it is not held back because some
choice has text. -/
def LastSafe (shouldIncludeUsage : Bool) (last : Chunk) : Prop :=
  shouldIncludeUsage = true ∨ validUsage last.usage = false ∨ last.choices = [] ∨
    ∃ choice ∈ last.choices, choice.hasText = true

theorem lastSafe_iff (shouldIncludeUsage : Bool) (last : Chunk) :
    LastSafe shouldIncludeUsage last ↔ shouldSendLastResp shouldIncludeUsage last = true ∨ last.choices = [] := by
  unfold LastSafe shouldSendLastResp
  cases shouldIncludeUsage <;> cases validUsage last.usage <;> simp [any_eq_true, or_comm]

theorem whole_snoc {shouldIncludeUsage : Bool} {chunks usage : List Chunk} {last : Chunk}
    (husage : usage.flatMap Chunk.choices = [])
    (h : shouldSendLastResp shouldIncludeUsage last = true ∨ last.choices = []) :
    Whole shouldIncludeUsage (chunks ++ [last])
      ((chunks ++ (if shouldSendLastResp shouldIncludeUsage last then [last] else []) ++ usage).map .data ++ [.done]) := by
  refine ⟨?_, ⟨_, rfl⟩, fun chunk hmem hnot => ?_⟩
  · rw [flatMap_data, flatMap_append, flatMap_append, flatMap_append, husage, append_nil]
    split
    · rfl
    · rename_i hheld
      simp [h.resolve_left hheld]
  · cases hsend : shouldSendLastResp shouldIncludeUsage last with
    | true =>
      rw [hsend] at hnot
      refine absurd ?_ hnot
      exact mem_append_left _ (mem_map_of_mem (mem_append_left _ hmem))
    | false =>
      rw [hsend] at hnot h
      obtain hold | hlast := mem_append.mp hmem
      · refine absurd ?_ hnot
        exact mem_append_left _ (mem_map_of_mem (mem_append_left _ (mem_append_left _ hold)))
      · obtain rfl := mem_singleton.mp hlast
        unfold shouldSendLastResp at hsend
        split at hsend
        · rename_i hcond
          simp only [Bool.and_eq_true, Bool.not_eq_true'] at hcond
          exact ⟨hcond.2, h.resolve_left Bool.false_ne_true, hcond.1⟩
        · cases hsend

/-- An OpenAI client gets the whole stream exactly if its last chunk is safe to hold back. -/
theorem relayed_whole_iff (shouldIncludeUsage isAudioModel : Bool) (model : String) (estimate : Usage)
    (chunks : List Chunk) :
    Whole shouldIncludeUsage chunks (oaiStreamHandler shouldIncludeUsage isAudioModel model estimate chunks) ↔
      ∀ last ∈ chunks.getLast?, LastSafe shouldIncludeUsage last := by
  induction chunks using reverseRecOn with
  | nil =>
    refine ⟨fun _ last hlast => (by cases hlast), fun _ => ?_⟩
    rw [oaiStreamHandler_nil]
    refine ⟨?_, ⟨_, rfl⟩, fun chunk hmem => (by cases hmem)⟩
    rw [flatMap_data, usageChunk_choices]
    rfl
  | append_singleton chunks last =>
    have hgetLast : (∀ l ∈ (chunks ++ [last]).getLast?, LastSafe shouldIncludeUsage l) ↔
        LastSafe shouldIncludeUsage last := by simp
    rw [hgetLast, lastSafe_iff, oaiStreamHandler_snoc]
    have husage := usageChunk_choices shouldIncludeUsage isAudioModel model estimate (chunks ++ [last])
    refine ⟨fun hwhole => ?_, whole_snoc husage⟩
    cases hsend : shouldSendLastResp shouldIncludeUsage last with
    | true => exact .inl rfl
    | false =>
      -- held back, so its choices are missing from what was sent
      have hchoices := hwhole.choices
      rw [flatMap_data, flatMap_append, husage, hsend] at hchoices
      simpa using hchoices.symm

/-- The finish reason and the usage come in one last chunk. -/
theorem finish_reason_withheld : ¬ Whole false [⟨"r", 1, "m", none, [⟨0, ⟨some "hi", none, none, []⟩, none⟩], none⟩,
        ⟨"r", 1, "m", none, [⟨0, ⟨none, none, none, []⟩, some "stop"⟩], some ⟨3, 1, 0, 0, 0, 0⟩⟩]
      (oaiStreamHandler false false "m" ⟨0, 0, 0, 0, 0, 0⟩
        [⟨"r", 1, "m", none, [⟨0, ⟨some "hi", none, none, []⟩, none⟩], none⟩,
          ⟨"r", 1, "m", none, [⟨0, ⟨none, none, none, []⟩, some "stop"⟩], some ⟨3, 1, 0, 0, 0, 0⟩⟩]) := by
  intro h
  have hchoices := h.choices
  revert hchoices
  decide +kernel

end HotAI.Stream
