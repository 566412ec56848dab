import HotAI.Messages.FromClaude

/-! # Which blocks of a Claude request reach a chat model -/
namespace HotAI.FromClaude
open HotAI.Lib HotAI.Messages List MediaMessage

/-! ## Blocks with their roles -/

inductive Occurrence where
  | text (role : Role) (text : String)
  | image (role : Role) (url : String)
  | toolUse (role : Role) (id name : String) (arguments : Json)
  | toolResult (toolUseId content : String)

def ClaudeMessageSource.meant (source : ClaudeMessageSource) : String :=
  if source.type = "url" then source.url else source.imageData

def MediaMessage.media (role : Role) : MediaMessage → Option Occurrence
  | .text s => some (.text role s)
  | .image source => some (.image role source.meant)
  | _ => none

def MediaMessage.use (role : Role) : MediaMessage → Option Occurrence
  | .toolUse id name input => some (.toolUse role id name input)
  | _ => none

def MediaMessage.result : MediaMessage → Option Occurrence
  | .toolResult toolUseId _ content => some (.toolResult toolUseId content.text)
  | _ => none

/-- The blocks of a message: the results first, then the content, then the tool uses, each kind in its order. -/
def ClaudeMessage.occurrences (m : ClaudeMessage) : List Occurrence :=
  match m.content with
  | .string s => [.text m.role s]
  | .blocks blocks =>
      blocks.filterMap MediaMessage.result ++ blocks.filterMap (MediaMessage.media m.role) ++
        blocks.filterMap (MediaMessage.use m.role)

def MediaContent.occurrence (role : Role) : MediaContent → Occurrence
  | .text s => .text role s
  | .imageUrl url => .image role url

def ToolCallRequest.occurrence (role : Role) (call : ToolCallRequest) : Occurrence :=
  .toolUse role call.id call.name call.arguments

def Message.occurrences (m : Message) : List Occurrence :=
  match m.role, m.content with
  | .tool, .string s => [.toolResult m.toolCallId s]
  | _, _ => m.parseContent.map (MediaContent.occurrence m.role) ++ m.toolCalls.map (ToolCallRequest.occurrence m.role)

/-! ## Each block once -/

section
variable (request : ClaudeRequest)

theorem occurrences_toolMessages (blocks : List MediaMessage) :
    (blocks.filterMap request.toolMessage?).flatMap Message.occurrences = blocks.filterMap MediaMessage.result := by
  induction blocks with
  | nil => rfl
  | cons block blocks ih =>
    cases block <;>
      simp [filterMap_cons, ClaudeRequest.toolMessage?, result, ih, ClaudeRequest.toolMessage,
        Message.occurrences]

def ClaudeMessage.mediaSent (m : ClaudeMessage) (blocks : List MediaMessage) : List Occurrence :=
  (blocks.filterMap MediaMessage.media?).map (MediaContent.occurrence m.role)

def ClaudeMessage.usesSent (m : ClaudeMessage) (blocks : List MediaMessage) : List Occurrence :=
  (blocks.filterMap MediaMessage.toolCall?).map (ToolCallRequest.occurrence m.role)

theorem usesSent_length (m : ClaudeMessage) (blocks : List MediaMessage) :
    (m.usesSent blocks).length = (blocks.filterMap (MediaMessage.use m.role)).length := by
  induction blocks with
  | nil => rfl
  | cons block blocks ih =>
    unfold ClaudeMessage.usesSent at ih ⊢
    cases block <;> simp_all [filterMap_cons, toolCall?, use]

/-- The numbers in the input of a tool use are written as they were. -/
def MediaMessage.Written : MediaMessage → Prop
  | .toolUse _ _ input => input.Exact
  | _ => True

theorem usesSent_iff (m : ClaudeMessage) (blocks : List MediaMessage) :
    m.usesSent blocks = blocks.filterMap (MediaMessage.use m.role) ↔
      ∀ block ∈ blocks, block.Written := by
  induction blocks with
  | nil => simp [ClaudeMessage.usesSent]
  | cons block blocks ih =>
    unfold ClaudeMessage.usesSent at ih ⊢
    cases block <;>
      simp [filterMap_cons, toolCall?, use, Written, ToolCallRequest.occurrence, ih, Json.decoded_eq_self_iff]

theorem mediaSent_length (m : ClaudeMessage) (blocks : List MediaMessage) :
    (m.mediaSent blocks).length = (blocks.filterMap (MediaMessage.media m.role)).length := by
  induction blocks with
  | nil => rfl
  | cons block blocks ih =>
    unfold ClaudeMessage.mediaSent at ih ⊢
    cases block <;> simp_all [filterMap_cons, media?, media]

def ClaudeMessageSource.Kept (source : ClaudeMessageSource) : Prop := source.type ≠ "url" ∨ source.imageData = source.url

theorem ClaudeMessageSource.meant_iff (source : ClaudeMessageSource) : source.imageData = source.meant ↔ source.Kept := by
  unfold ClaudeMessageSource.Kept ClaudeMessageSource.meant
  by_cases h : source.type = "url" <;> simp [h]

theorem mediaSent_iff (m : ClaudeMessage) (blocks : List MediaMessage) :
    m.mediaSent blocks = blocks.filterMap (MediaMessage.media m.role) ↔
      ∀ source, MediaMessage.image source ∈ blocks → source.Kept := by
  induction blocks with
  | nil => simp [ClaudeMessage.mediaSent]
  | cons block blocks ih =>
    unfold ClaudeMessage.mediaSent at ih ⊢
    cases block <;>
      simp [filterMap_cons, media?, media, MediaContent.occurrence, ih,
        ClaudeMessageSource.meant_iff, or_imp, forall_and]

/-- Text and images do not stand next to tool uses, images are not given by their URL, and numbers stay as they were. -/
def ClaudeMessage.Kept (m : ClaudeMessage) : Prop :=
  ((∀ block ∈ m.parseContent, block.toolCall? = none) ∨ ∀ block ∈ m.parseContent, block.media? = none) ∧
    (∀ source, MediaMessage.image source ∈ m.parseContent → source.Kept) ∧ ∀ block ∈ m.parseContent, block.Written

theorem media_eq_nil_iff (m : ClaudeMessage) (blocks : List MediaMessage) :
    blocks.filterMap (MediaMessage.media m.role) = [] ↔ ∀ block ∈ blocks, block.media? = none := by
  rw [← length_eq_zero_iff, ← mediaSent_length, length_eq_zero_iff, ClaudeMessage.mediaSent, map_eq_nil_iff,
    filterMap_eq_nil_iff]

theorem ClaudeMessage.role_ne_tool (m : ClaudeMessage) : m.role ≠ .tool := by
  rcases m.role_ok with h | h <;> rw [h] <;> exact fun h => (by cases h)

theorem occurrences_mk (m : ClaudeMessage) (content : Content MediaContent) (calls : List ToolCallRequest) :
    (Message.mk m.role content calls none "").occurrences =
      (Message.mk m.role content calls none "").parseContent.map (MediaContent.occurrence m.role) ++
        calls.map (ToolCallRequest.occurrence m.role) := by
  unfold Message.occurrences
  split
  · rename_i hrole _
    exact absurd hrole m.role_ne_tool
  · rfl

variable {m : ClaudeMessage}

theorem own_occurrences {blocks : List MediaMessage} (h : m.content = .blocks blocks) : m.own.flatMap Message.occurrences =
      (if blocks.filterMap MediaMessage.toolCall? = [] then m.mediaSent blocks else []) ++ m.usesSent blocks := by
  rw [ClaudeMessage.usesSent, ClaudeMessage.mediaSent, ClaudeMessage.own, h]
  dsimp only
  cases hcalls : blocks.filterMap toolCall? with
  | nil =>
    cases hmedia : blocks.filterMap media? with
    | nil => rfl
    | cons content contents =>
      simp [occurrences_mk, Message.parseContent, Content.parse]
  | cons call calls =>
    simp [occurrences_mk, Message.parseContent, Content.parse]

theorem group_occurrences (m : ClaudeMessage) :
    ((request.group m).flatMap Message.occurrences).length ≤ m.occurrences.length ∧
      ((request.group m).flatMap Message.occurrences = m.occurrences ↔ m.Kept) := by
  unfold ClaudeRequest.group ClaudeMessage.occurrences ClaudeMessage.Kept
  rw [flatMap_append, occurrences_toolMessages]
  cases hcontent : m.content with
  | string s =>
    have hown : m.own.flatMap Message.occurrences = [.text m.role s] := by
      rw [ClaudeMessage.own, hcontent]
      simp only [flatMap_singleton, occurrences_mk]
      rfl
    simp [hown, ClaudeMessage.parseContent, hcontent]
  | blocks blocks =>
    have hparse : m.parseContent = blocks := by rw [ClaudeMessage.parseContent, hcontent]
    -- the uses sent are as many as the uses meant, so that the two parts are compared one by one
    have hparts (sent : List Occurrence) : sent ++ m.usesSent blocks =
        blocks.filterMap (media m.role) ++ blocks.filterMap (use m.role) ↔
          sent = blocks.filterMap (media m.role) ∧ m.usesSent blocks = blocks.filterMap (use m.role) :=
      ⟨fun h => append_inj' h (usesSent_length m blocks), fun h => by rw [h.1, h.2]⟩
    dsimp only
    rw [own_occurrences hcontent, hparse, append_assoc (filterMap result blocks), append_cancel_left_eq, hparts,
      usesSent_iff, ← filterMap_eq_nil_iff]
    by_cases hcalls : blocks.filterMap toolCall? = []
    · rw [if_pos hcalls, mediaSent_iff]
      simp [hcalls, mediaSent_length, usesSent_length]
    · rw [if_neg hcalls, eq_comm, media_eq_nil_iff]
      refine ⟨by simp [usesSent_length], fun h => ⟨.inr h.1, fun source hsource => ?_, h.2⟩, fun h => ⟨?_, h.2.2⟩⟩
      · exact absurd (h.1 _ hsource) (by simp [media?])
      · exact h.1.resolve_left hcalls

theorem group_role {o : Message} (h : o ∈ request.group m) : o.role = .tool ∨ o.role = m.role := by
  rcases mem_append.mp h with h | h
  · obtain ⟨block, -, hblock⟩ := mem_filterMap.mp h
    cases block <;> simp only [ClaudeRequest.toolMessage?, Option.some.injEq, reduceCtorEq] at hblock
    exact .inl (hblock ▸ rfl)
  · refine .inr ?_
    unfold ClaudeMessage.own at h
    split at h
    · rw [mem_singleton.mp h]
    · split at h
      · cases h
      · rw [mem_singleton.mp h]
      · rw [mem_singleton.mp h]

variable (isOpenRouterClaude : Bool)

theorem systemMessages_spec : ∀ o ∈ request.systemMessages isOpenRouterClaude, o.role = .system ∧ o.toolCalls = [] := by
  unfold ClaudeRequest.systemMessages
  intro o h
  split at h
  · cases h
  · split at h
    · rw [mem_singleton.mp h]
      exact ⟨rfl, rfl⟩
    · cases h
  · split_ifs at h
    · cases h
    · rw [mem_singleton.mp h]
      exact ⟨rfl, rfl⟩
    · rw [mem_singleton.mp h]
      exact ⟨rfl, rfl⟩

theorem nonsystem_messages : (claudeToOpenAIRequest isOpenRouterClaude request).filter (·.role ≠ .system) =
      request.messages.flatMap request.group := by
  have hsystem : (request.systemMessages isOpenRouterClaude).filter (·.role ≠ .system) = [] := by
    refine filter_eq_nil_iff.mpr fun o ho => ?_
    simp [(systemMessages_spec request isOpenRouterClaude o ho).1]
  have hrest : (request.messages.flatMap request.group).filter (·.role ≠ .system) =
      request.messages.flatMap request.group := by
    refine filter_eq_self.mpr fun o ho => ?_
    obtain ⟨m, -, hm⟩ := mem_flatMap.mp ho
    rcases group_role request hm with h | h
    · simp [h]
    · rcases m.role_ok with hrole | hrole <;> simp [h, hrole]
  rw [claudeToOpenAIRequest_eq, filter_append, hsystem, hrest, nil_append]

theorem blocks_kept_iff :
    ((claudeToOpenAIRequest isOpenRouterClaude request).filter (·.role ≠ .system)).flatMap Message.occurrences =
        request.messages.flatMap ClaudeMessage.occurrences ↔ ∀ m ∈ request.messages, m.Kept := by
  rw [nonsystem_messages, flatMap_assoc, flatMap_eq_flatMap_iff fun m _ => (group_occurrences request m).1]
  exact forall₂_congr fun m _ => (group_occurrences request m).2

/-! ## Answers after calls -/

def FollowedByAnswers : List Message → Prop
  | [] => True
  | o :: rest =>
      (o.role = .assistant → o.toolCalls ≠ [] →
        ((rest.takeWhile (·.role = .tool)).map Message.toolCallId).Perm (o.toolCalls.map ToolCallRequest.id)) ∧
      FollowedByAnswers rest

def ClaudeMessage.uses (m : ClaudeMessage) : List String :=
  (m.parseContent.filterMap MediaMessage.toolCall?).map ToolCallRequest.id

def MediaMessage.resultId? : MediaMessage → Option String
  | .toolResult toolUseId _ _ => some toolUseId
  | _ => none

def ClaudeMessage.results (m : ClaudeMessage) : List String := m.parseContent.filterMap MediaMessage.resultId?

/-- In the input: each tool use has a result in the next message. -/
def AllAnswered : List ClaudeMessage → Prop
  | [] => True
  | m :: rest => (∀ id ∈ m.uses, ∃ next ∈ rest.head?, id ∈ next.results) ∧ AllAnswered rest

def resultRun : List ClaudeMessage → List String
  | [] => []
  | m :: rest => m.results ++ if m.own = [] then resultRun rest else []

/-- The results after an assistant message, up to the next message with anything else, answer exactly its tool uses. -/
def OnlyAnswered : List ClaudeMessage → Prop
  | [] => True
  | m :: rest => (m.role = .assistant → m.uses ≠ [] → (resultRun rest).Perm m.uses) ∧ OnlyAnswered rest

theorem toolMessages_spec (blocks : List MediaMessage) :
    (∀ o ∈ blocks.filterMap request.toolMessage?, o.role = .tool ∧ o.toolCalls = []) ∧
      (blocks.filterMap request.toolMessage?).map Message.toolCallId = blocks.filterMap MediaMessage.resultId? := by
  constructor
  · intro o ho
    obtain ⟨block, -, hblock⟩ := mem_filterMap.mp ho
    cases block <;> simp only [ClaudeRequest.toolMessage?, Option.some.injEq, reduceCtorEq] at hblock
    exact hblock ▸ ⟨rfl, rfl⟩
  · rw [map_filterMap]
    refine filterMap_congr fun block _ => ?_
    cases block <;> rfl

theorem own_spec (m : ClaudeMessage) : m.own = [] ∧ m.uses = [] ∨
    ∃ o, m.own = [o] ∧ o.role = m.role ∧ o.toolCalls.map ToolCallRequest.id = m.uses := by
  unfold ClaudeMessage.own ClaudeMessage.uses ClaudeMessage.parseContent
  cases m.content with
  | string s => exact .inr ⟨_, rfl, rfl, rfl⟩
  | blocks blocks =>
    dsimp only
    cases blocks.filterMap toolCall? with
    | cons call calls => exact .inr ⟨_, rfl, rfl, rfl⟩
    | nil =>
      cases blocks.filterMap media? with
      | nil => exact .inl ⟨rfl, rfl⟩
      | cons content contents => exact .inr ⟨_, rfl, rfl, rfl⟩

theorem takeWhile_groups (ms : List ClaudeMessage) :
    ((ms.flatMap request.group).takeWhile (·.role = .tool)).map Message.toolCallId = resultRun ms := by
  induction ms with
  | nil => rfl
  | cons m ms ih =>
    obtain ⟨htool, hids⟩ := toolMessages_spec request m.parseContent
    rw [flatMap_cons, ClaudeRequest.group, append_assoc,
      takeWhile_append_of_pos fun o ho => by simp [(htool o ho).1], map_append, hids, resultRun]
    refine congrArg _ ?_
    obtain ⟨hown, -⟩ | ⟨o, hown, hrole, -⟩ := own_spec m
    · rw [hown, nil_append, ih, if_pos rfl]
    · have hne : o.role ≠ .tool := hrole ▸ m.role_ne_tool
      simp [hown, hne]

theorem followed_append {as bs : List Message} (h : ∀ o ∈ as, o.toolCalls = []) :
    FollowedByAnswers (as ++ bs) ↔ FollowedByAnswers bs := by
  induction as with
  | nil => exact Iff.rfl
  | cons o as ih =>
    obtain ⟨ho, has⟩ := forall_mem_cons.mp h
    rw [cons_append, FollowedByAnswers, ih has]
    simp [ho]

theorem followed_groups_iff (ms : List ClaudeMessage) : FollowedByAnswers (ms.flatMap request.group) ↔ OnlyAnswered ms := by
  induction ms with
  | nil => exact Iff.rfl
  | cons m ms ih =>
    obtain ⟨htool, -⟩ := toolMessages_spec request m.parseContent
    rw [flatMap_cons, ClaudeRequest.group, append_assoc, followed_append fun o ho => (htool o ho).2, OnlyAnswered]
    obtain ⟨hown, huses⟩ | ⟨o, hown, hrole, hcalls⟩ := own_spec m
    · simp [hown, huses, ih]
    · have hne : o.toolCalls ≠ [] ↔ m.uses ≠ [] := by rw [← hcalls, ne_eq, ne_eq, map_eq_nil_iff]
      rw [hown, singleton_append, FollowedByAnswers, ih, takeWhile_groups, hrole, hne, hcalls]

/-! ## The request -/

/-- Every block once, under its role and in order; calls answered in the next message are followed by their answers. -/
structure LosesNothing (out : List Message) : Prop where
  blocks : (out.filter (·.role ≠ .system)).flatMap Message.occurrences = request.messages.flatMap ClaudeMessage.occurrences
  answers : AllAnswered request.messages → FollowedByAnswers out

/-- A Claude request reaches the chat model whole exactly if every message is kept and the results in the next messages
answer nothing but the tool uses before them. -/
theorem loses_nothing_iff (isOpenRouterClaude : Bool) :
    LosesNothing request (claudeToOpenAIRequest isOpenRouterClaude request) ↔
      (∀ m ∈ request.messages, m.Kept) ∧ (AllAnswered request.messages → OnlyAnswered request.messages) := by
  have hfollowed : FollowedByAnswers (claudeToOpenAIRequest isOpenRouterClaude request) ↔ OnlyAnswered request.messages := by
    rw [claudeToOpenAIRequest_eq, followed_append fun o ho => (systemMessages_spec request isOpenRouterClaude o ho).2,
      followed_groups_iff]
  rw [← blocks_kept_iff request isOpenRouterClaude, ← hfollowed]
  exact ⟨fun h => ⟨h.blocks, h.answers⟩, fun h => ⟨h.1, h.2⟩⟩

end

def lookThenCall : ClaudeRequest :=
  ⟨none, [⟨.assistant, .inr rfl, .blocks [.text "let me look", .toolUse "t" "get" (.obj [])]⟩]⟩

theorem text_before_tool_use_lost : ¬ LosesNothing lookThenCall (claudeToOpenAIRequest false lookThenCall) ∧
    (claudeToOpenAIRequest false lookThenCall).map Message.parseContent = [[]] := by
  refine ⟨fun h => ?_, rfl⟩
  have hlength := congrArg length h.blocks
  revert hlength
  decide +kernel

end HotAI.FromClaude
