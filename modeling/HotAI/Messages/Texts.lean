import HotAI.Messages.ToClaude
import HotAI.Lib.Lines

/-! # The texts of a chat request for Claude

Neighbouring messages of one role become one, whose text is joined step by step. Each step cuts quotes off the ends, and an
empty text is filled in before it is joined. -/
namespace HotAI.Messages
open HotAI.Lib List Converting ClaudeMessage

def Content.text : Content → String
  | .string s => s
  | _ => ""

def Message.text (m : Message) : String := m.content.text

def joins (m n : Message) : Bool := m.role = n.role ∧ m.role ≠ .tool

def runs (messages : List Message) : List (List Message) := messages.splitBy joins

def runRole (run : List Message) : Role := (run.head?.map Message.role).getD .tool

def runText (run : List Message) : String := " ".intercalate ((run.map Message.text).filter (· ≠ ""))

/-- A message without a role counts as one of the user. -/
def Message.named (m : Message) : Message := { m with role := if m.role = .unnamed then .user else m.role }

/-- No text is empty, and none that is joined has a quote at an end that is cut. -/
structure KeptRun (run : List Message) : Prop where
  nonempty : ∀ m ∈ run, m.text ≠ ""
  first : run.tail ≠ [] → ∀ m ∈ run.head?, m.text.toList.head? ≠ some '"'
  last : ∀ m ∈ run.tail, m.text.toList.getLast? ≠ some '"'

def ClaudeMessage.texts (m : ClaudeMessage) : List String :=
  match m.content with
  | .string s => [s]
  | .blocks blocks => blocks.filterMap fun
      | .text s => some s
      | _ => none

def ClaudeMessage.spoken (m : ClaudeMessage) : Option (Role × List String) :=
  if m.texts = [] then none else some (m.role, m.texts)

def speaks (role : Role) : Bool := role ≠ .system ∧ role ≠ .tool

/-- The message that is put before a conversation that the user does not begin. -/
def opening (roles : List Role) : List (Role × List String) :=
  match roles.find? (· ≠ .system) with
  | none | some .user => []
  | _ => [(.user, [placeholder])]

/-- The texts of `claudeRequest.System`. -/
def requestSystem (messages : List Message) : List String :=
  ((messages.foldl Formatting.step .init).formatMessages.foldl Converting.step .init).systemMessages

def UserOrAssistant (messages : List ClaudeMessage) : Prop := ∀ m ∈ messages, m.role = .user ∨ m.role = .assistant

/-- Each run of messages of one role becomes one message, or one block of the system prompt, with their texts. -/
structure TextsKept (messages : List Message) : Prop where
  conversation : (requestOpenAI2ClaudeMessage messages).filterMap ClaudeMessage.spoken =
    opening ((runs (messages.map Message.named)).map runRole) ++
      ((runs (messages.map Message.named)).filter (speaks <| runRole ·)).map fun run => (runRole run, [runText run])
  system : requestSystem messages = ((runs (messages.map Message.named)).filter (runRole · = .system)).map runText
  roles : UserOrAssistant (requestOpenAI2ClaudeMessage messages)

/-! ## The text of a run

A join adds one blank and no letter, so an equal number of blanks says that no empty text was joined, and an equal length
that nothing was cut. -/

/-- What the first loop makes of the texts of a run. -/
def joinedTexts : List String → String
  | [] => ""
  | text :: rest => rest.foldl joinContents (if text = "" then placeholder else text)

def blanks (s : String) : ℕ := s.toList.count ' '

theorem trimEnds_sublist (p : Char → Bool) (l : List Char) : (trimEnds p l).Sublist l :=
  ( rdropWhile_prefix _ _).sublist.trans (dropWhile_sublist _)

theorem count_dropWhile {p : Char → Bool} {c : Char} (h : p c = false) (l : List Char) : (l.dropWhile p).count c = l.count c := by
  induction l with
  | nil => rfl
  | cons a l ih =>
    by_cases ha : p a = true
    · have hne : a ≠ c := fun heq => by simp [heq, h] at ha
      rw [dropWhile_cons_of_pos ha, ih, count_cons_of_ne hne]
    · rw [dropWhile_cons_of_neg ha]

theorem blanks_joinContents (last next : String) : blanks (joinContents last next) = blanks last + (1 + blanks next) := by
  have hcut (l : List Char) : (trimEnds (· = '"') l).count ' ' = l.count ' ' := by
    rw [trimEnds, rdropWhile, count_reverse, count_dropWhile (by decide), count_reverse, count_dropWhile (by decide)]
  rw [blanks, joinContents, String.toList_ofList, hcut]
  simp [blanks]
  omega

theorem length_joinContents_le (last next : String) :
    (joinContents last next).toList.length ≤ last.toList.length + (1 + next.toList.length) := by
  have hle := (trimEnds_sublist (· = '"') (last ++ " " ++ next).toList).length_le
  rw [joinContents, String.toList_ofList]
  simp at hle ⊢
  omega

theorem joinContents_eq_iff {last next : String} (hne : next ≠ "") : joinContents last next = last ++ " " ++ next ↔
    last.toList.head? ≠ some '"' ∧ next.toList.getLast? ≠ some '"' := by
  have hlist : next.toList ≠ [] := by simpa using hne
  have hends := trimEnds_eq_self_iff (· = '"') (last ++ " " ++ next).toList
  rw [joinContents, ← String.toList_inj, String.toList_ofList, hends, String.toList_append, getLast?_append_of_ne_nil _ hlist]
  refine and_congr ⟨fun h hhead => ?_, fun h c hc => ?_⟩ ⟨fun h hlast => ?_, fun h c hc => ?_⟩
  · simpa using h '"' (by cases hl : last.toList <;> simp_all)
  · cases hl : last.toList <;> simp_all
    rintro rfl
    simp at hc
  · simpa using h '"' hlast
  · simp_all

/-- The lengths agree only if nothing is cut. -/
theorem joinContents_of_length {last next : String}
    (h : last.toList.length + (1 + next.toList.length) ≤ (joinContents last next).toList.length) :
    joinContents last next = last ++ " " ++ next := by
  rw [joinContents, String.toList_ofList] at h
  have heq := (trimEnds_sublist (· = '"') (last ++ " " ++ next).toList).eq_of_length_le (by simp at h ⊢; omega)
  rw [joinContents, heq, String.ofList_toList]

theorem intercalate_eq (text : String) (rest : List String) :
    " ".intercalate (text :: rest) = rest.foldl (fun last next => last ++ " " ++ next) text := by
  induction rest generalizing text with
  | nil => rfl
  | cons next rest ih => exact ih _

section
variable (text : String) (rest : List String)

/-- A size that a join makes greater by one. -/
theorem size_foldl {size : String → ℕ} {join : String → String → String}
    (hjoin : ∀ last next, size (join last next) = size last + (1 + size next)) :
    size (rest.foldl join text) = size text + (rest.map (1 + size ·)).sum := by
  induction rest generalizing text with
  | nil => rfl
  | cons next rest ih => rw [foldl_cons, ih, hjoin, map_cons, sum_cons, Nat.add_assoc]

theorem blanks_foldl : blanks (rest.foldl joinContents text) = blanks text + (rest.map (1 + blanks ·)).sum :=
  size_foldl text rest blanks_joinContents

theorem blanks_intercalate : blanks (" ".intercalate (text :: rest)) = blanks text + (rest.map (1 + blanks ·)).sum := by
  rw [intercalate_eq]
  exact size_foldl text rest fun last next => by simp [blanks]; omega

theorem length_foldl_le :
    (rest.foldl joinContents text).toList.length ≤ text.toList.length + (rest.map (1 + ·.toList.length)).sum := by
  induction rest generalizing text with
  | nil => simp
  | cons next rest ih =>
    have hstep := length_joinContents_le text next
    have hrest := ih (joinContents text next)
    rw [foldl_cons, map_cons, sum_cons]
    omega

theorem length_intercalate : (" ".intercalate (text :: rest)).toList.length =
    text.toList.length + (rest.map (1 + ·.toList.length)).sum := by
  rw [intercalate_eq]
  exact @size_foldl text rest (·.toList.length) _ fun last next => by simp; omega

/-- Each empty text that is left out is a blank less. -/
theorem sum_filter : (rest.map (1 + blanks ·)).sum = ((rest.filter (· ≠ "")).map (1 + blanks ·)).sum + rest.count "" := by
  induction rest with
  | nil => rfl
  | cons next rest ih =>
    rw [map_cons, sum_cons, ih]
    by_cases h : next = ""
    · rw [h, filter_cons_of_neg (by simp), count_cons_self, show blanks "" = 0 from rfl]
      omega
    · rw [filter_cons_of_pos (by simpa using h), map_cons, sum_cons, count_cons_of_ne h]
      omega

end

theorem foldl_eq_intercalate_iff {text : String} {rest : List String} (hne : ∀ next ∈ rest, next ≠ "") :
    rest.foldl joinContents text = " ".intercalate (text :: rest) ↔
      (rest ≠ [] → text.toList.head? ≠ some '"') ∧ ∀ next ∈ rest, next.toList.getLast? ≠ some '"' := by
  induction rest generalizing text with
  | nil => simp
  | cons next rest ih =>
    rw [forall_mem_cons] at hne
    have hhead : (text ++ " " ++ next).toList.head? ≠ some '"' ↔ text.toList.head? ≠ some '"' := by
      cases hl : text.toList <;> simp [hl]
    have hjoin := @joinContents_eq_iff text next hne.1
    constructor
    · intro h
      have hlength := congrArg (·.toList.length) h
      have hle := length_foldl_le (joinContents text next) rest
      rw [length_intercalate, map_cons, sum_cons, foldl_cons] at hlength
      have heq := @joinContents_of_length text next (by omega)
      rw [foldl_cons, heq, intercalate_eq, foldl_cons, ← intercalate_eq, ih hne.2] at h
      exact ⟨fun _ => (hjoin.mp heq).1, forall_mem_cons.mpr ⟨(hjoin.mp heq).2, h.2⟩⟩
    · intro h
      rw [forall_mem_cons] at h
      have htext := h.1 (cons_ne_nil next rest)
      rw [foldl_cons, hjoin.mpr ⟨htext, h.2.1⟩, (ih hne.2).mpr ⟨fun _ => hhead.mpr htext, h.2.2⟩]
      rfl

theorem joinedTexts_nil_ne (rest : List String) :
    joinedTexts ("" :: rest) ≠ " ".intercalate (("" :: rest).filter (· ≠ "")) := by
  intro h
  have hblanks := congrArg blanks h
  have hsum := sum_filter rest
  rw [joinedTexts, if_pos rfl, blanks_foldl, filter_cons_of_neg (by simp)] at hblanks
  cases hkept : rest.filter (· ≠ "") with
  | nil =>
    rw [hkept] at hblanks hsum
    have hnil : rest = [] := by
      have hzero : (rest.map (1 + blanks ·)).sum = 0 := by simpa [blanks, placeholder] using hblanks
      cases rest <;> simp_all
    simp [hnil, joinedTexts, placeholder] at h
  | cons text kept =>
    rw [hkept, blanks_intercalate, show blanks placeholder = 0 from rfl] at hblanks
    rw [hkept, map_cons, sum_cons] at hsum
    omega

variable {run : List Message}

/-- The joined text is that of the run only if nothing was filled in or cut. -/
theorem joinedTexts_eq_iff (hne : run ≠ []) : joinedTexts (run.map Message.text) = runText run ↔ KeptRun run := by
  obtain ⟨m, rest, rfl⟩ := exists_cons_of_ne_nil hne
  rw [runText, map_cons]
  by_cases hm : m.text = ""
  · rw [hm]
    exact iff_of_false (joinedTexts_nil_ne _) fun h => h.nonempty m (mem_cons_self ..) hm
  rw [joinedTexts, if_neg hm, filter_cons_of_pos (by simpa using hm)]
  by_cases hrest : ∀ next ∈ rest.map Message.text, next ≠ ""
  · rw [filter_eq_self.mpr (by simpa using hrest), foldl_eq_intercalate_iff hrest]
    simp only [forall_mem_map] at hrest ⊢
    exact ⟨fun h => ⟨forall_mem_cons.mpr ⟨hm, hrest⟩, by simpa using h.1, h.2⟩, fun h => ⟨by simpa using h.first, h.last⟩⟩
  · refine iff_of_false (fun h => ?_) fun h => hrest (forall_mem_map.mpr (forall_mem_cons.mp h.nonempty).2)
    have hblanks := congrArg blanks h
    rw [blanks_foldl, blanks_intercalate, sum_filter (rest.map Message.text)] at hblanks
    have hcount : (rest.map Message.text).count "" = 0 := by omega
    exact hrest fun next hnext heq => count_eq_zero.mp hcount (heq ▸ hnext)

theorem joinedTexts_ne (hne : run ≠ []) : joinedTexts (run.map Message.text) ≠ "" := by
  obtain ⟨m, rest, rfl⟩ := exists_cons_of_ne_nil hne
  rw [map_cons, joinedTexts]
  cases rest with
  | nil => split_ifs <;> simp_all [placeholder]
  | cons n rest =>
    intro h
    have hblanks := congrArg blanks h
    rw [blanks_foldl, map_cons, map_cons, sum_cons] at hblanks
    simp [blanks] at hblanks

/-! ## First loop -/

variable {f : Formatting} {m fm : Message} {text : String}

/-- The messages of a run after the first are joined to what is there. -/
theorem foldl_join {rest : List Message} {formatted : List Message} (hcontent : fm.content = .string text)
    (hrole : ∀ n ∈ rest, n.role = fm.role ∧ fm.role ≠ .tool) (hstring : ∀ n ∈ rest, n.content = .string n.text) :
    ∃ fm', fm'.role = fm.role ∧ fm'.content = .string ((rest.map Message.text).foldl joinContents text) ∧
      rest.foldl Formatting.step ⟨formatted ++ [fm], fm⟩ = ⟨formatted ++ [fm'], fm'⟩ := by
  induction rest generalizing fm text with
  | nil => exact ⟨fm, rfl, hcontent, rfl⟩
  | cons n rest ih =>
    rw [forall_mem_cons] at hrole hstring
    have hne : joinContents text n.text ≠ "" := fun h => by simpa [blanks] using (blanks_joinContents text n.text).symm.trans (congrArg blanks h)
    have hstep : Formatting.step ⟨formatted ++ [fm], fm⟩ n =
        ⟨formatted ++ [{ n.copy with content := .string (joinContents text n.text) }],
          { n.copy with content := .string (joinContents text n.text) }⟩ := by
      simp [Formatting.step, hcontent, hstring.1, hrole.1.1, hrole.1.2, hne, Content.filled]
    obtain ⟨fm', hrole', hcontent', hfold⟩ := @ih { n.copy with content := .string (joinContents text n.text) } _ rfl
      (fun k hk => by simpa [Message.copy, hrole.1.1] using hrole.2 k hk) hstring.2
    exact ⟨fm', hrole'.trans hrole.1.1, hcontent', by rw [foldl_cons, hstep, hfold]⟩

theorem chain_role {rest : List Message} (h : (m :: rest).IsChain fun a b => joins a b) :
    ∀ n ∈ rest, n.role = m.role ∧ m.role ≠ .tool := by
  induction rest generalizing m with
  | nil => simp
  | cons k rest ih =>
    obtain ⟨hk, hrest⟩ := isChain_cons_cons.mp h
    have hk : m.role = k.role ∧ m.role ≠ .tool := by simpa [joins] using hk
    exact forall_mem_cons.mpr ⟨⟨hk.1.symm, hk.2⟩, fun n hn => ⟨((ih hrest) n hn).1.trans hk.1.symm, hk.2⟩⟩

theorem role_of_mem (hchain : run.IsChain fun a b => joins a b) (hm : m ∈ run) : m.role = runRole run := by
  cases run with
  | nil => simp at hm
  | cons first rest =>
    rcases mem_cons.mp hm with rfl | hm
    · rfl
    · exact (chain_role hchain m hm).1

theorem foldl_run (hne : run ≠ []) (hchain : run.IsChain fun a b => joins a b) (hstring : ∀ n ∈ run, n.content = .string n.text)
    (hstart : ∀ n ∈ run.head?, joins f.lastMessage n = false) :
    ∃ fm, fm.role = runRole run ∧ fm.content = .string (joinedTexts (run.map Message.text)) ∧
      run.foldl Formatting.step f = ⟨f.formatMessages ++ [fm], fm⟩ := by
  obtain ⟨m, rest, rfl⟩ := exists_cons_of_ne_nil hne
  rw [forall_mem_cons] at hstring
  have hfilled : m.content.filled = .string (if m.text = "" then placeholder else m.text) := by
    rw [hstring.1, Content.filled]
    split <;> rfl
  have hstep : f.step m = ⟨f.formatMessages ++ [{ m.copy with content := m.content.filled }], { m.copy with content := m.content.filled }⟩ := by
    have hapart : decide (f.lastMessage.role = m.role ∧ f.lastMessage.role ≠ .tool) = false := hstart m rfl
    rw [Formatting.step, hapart]
  obtain ⟨fm, hrole, hcontent, hfold⟩ := @foldl_join { m.copy with content := m.content.filled } _ rest f.formatMessages
    hfilled (fun n hn => chain_role hchain n hn) hstring.2
  exact ⟨fm, hrole, hcontent, by rw [foldl_cons, hstep, hfold]⟩

/-- One formatted message for each run. -/
theorem foldl_runs {rs : List (List Message)} (hne : [] ∉ rs) (hchain : ∀ run ∈ rs, run.IsChain fun a b => joins a b)
    (hapart : rs.IsChain fun a b => ∃ ha hb, joins (a.getLast ha) (b.head hb) = false)
    (hstring : ∀ run ∈ rs, ∀ n ∈ run, n.content = .string n.text)
    (hstart : ∀ run ∈ rs.head?, ∀ n ∈ run.head?, joins f.lastMessage n = false) :
    (rs.flatten.foldl Formatting.step f).formatMessages.map (fun m => (m.role, m.content)) =
      f.formatMessages.map (fun m => (m.role, m.content)) ++
        rs.map fun run => (runRole run, .string (joinedTexts (run.map Message.text))) := by
  induction rs generalizing f with
  | nil => simp
  | cons run rs ih =>
    rw [mem_cons, not_or] at hne
    rw [forall_mem_cons] at hchain hstring
    obtain ⟨hnext, hrest⟩ := isChain_cons.mp hapart
    obtain ⟨fm, hrole, hcontent, hfold⟩ := foldl_run (Ne.symm hne.1) hchain.1 hstring.1 (hstart run rfl)
    have hlast : ∀ next ∈ rs.head?, ∀ n ∈ next.head?, joins fm n = false := by
      intro next hmem n hn
      obtain ⟨ha, hb, hjoins⟩ := hnext next hmem
      have hfm : fm.role = (run.getLast ha).role := hrole.trans (role_of_mem hchain.1 (getLast_mem ha)).symm
      rw [head?_eq_some_head hb, Option.mem_some] at hn
      simpa [joins, hfm, ← hn] using hjoins
    rw [flatten_cons, foldl_append, hfold, ih hne.2 hchain.2 hrest hstring.2 hlast]
    simp [hrole, hcontent]

/-! ## Second loop -/

variable {c : Converting}

theorem spoken_withToolResult (last : ClaudeMessage) (m : Message) :
    (last.withToolResult (.toolResult m.toolCallId m.content)).spoken = last.spoken := by
  obtain ⟨-, content⟩ := last
  cases content <;> simp [withToolResult, spoken, texts]

theorem spoken_addTool (c : Converting) (m : Message) :
    (c.addTool m).claudeMessages.filterMap ClaudeMessage.spoken = c.claudeMessages.filterMap ClaudeMessage.spoken := by
  unfold addTool
  split
  · rename_i content hlast
    obtain ⟨init, hinit⟩ := getLast?_eq_some_iff.mp hlast
    simp [hinit, spoken_withToolResult, filterMap_cons]
  · simp [spoken, texts]

theorem spoken_begin (c : Converting) (m : Message) : (c.begin m).claudeMessages.filterMap ClaudeMessage.spoken =
    c.claudeMessages.filterMap ClaudeMessage.spoken ++
      if c.isFirstMessage ∧ m.role ≠ .user then [(.user, [placeholder])] else [] := by
  unfold begin
  split_ifs <;> simp_all [spoken, texts]

theorem claudeContent_spoken (hcontent : m.content = .string text) (hne : text ≠ "") :
    ClaudeMessage.spoken ⟨m.role, m.claudeContent⟩ = some (m.role, [text]) := by
  have huses : (m.parseToolCalls.map ToolCall.toolUse).filterMap (fun | .text s => some s | _ => none) = ([] : List String) := by
    simp [filterMap_map, Function.comp_def, ToolCall.toolUse]
  cases hcalls : m.toolCalls <;>
    simp_all [spoken, texts, Message.claudeContent, Message.parseContent]

section
variable (h : UserOrAssistant c.claudeMessages)
include h

theorem role_begin (m : Message) : UserOrAssistant (c.begin m).claudeMessages := by
  unfold begin
  split_ifs
  · simpa [UserOrAssistant, or_imp, forall_and] using h
  · exact h
  · exact h

theorem role_addTool (m : Message) : UserOrAssistant (c.addTool m).claudeMessages := by
  unfold addTool
  split
  · intro n hn
    rcases mem_append.mp hn with hn | hn
    · exact h n (mem_of_mem_dropLast hn)
    · rw [mem_singleton.mp hn, withToolResult]
      split <;> exact .inl rfl
  · simpa [UserOrAssistant, or_imp, forall_and] using h

end

/-- What one formatted message adds. -/
theorem converting_step (hcontent : m.content = .string m.text) (hne : m.text ≠ "") :
    (c.step m).claudeMessages.filterMap ClaudeMessage.spoken = c.claudeMessages.filterMap ClaudeMessage.spoken ++
        (if c.isFirstMessage then opening [m.role] else []) ++ (if speaks m.role then [(m.role, [m.text])] else []) ∧
      (c.step m).isFirstMessage = (c.isFirstMessage && m.role = .system) ∧
      (c.step m).systemMessages = c.systemMessages ++ (if m.role = .system then [m.text] else []) ∧
      (m.role ≠ .unnamed → UserOrAssistant c.claudeMessages → UserOrAssistant (c.step m).claudeMessages) := by
  have hfirst : (c.begin m).isFirstMessage = false ∧ (c.begin m).systemMessages = c.systemMessages := by
    unfold begin
    split_ifs <;> simp_all
  have hspoken := claudeContent_spoken hcontent hne
  unfold step
  cases hrole : m.role with
  | system => simp [opening, speaks, Message.parseContent, hcontent, hne]
  | tool =>
    refine ⟨?_, ?_, ?_, fun _ h => role_addTool (role_begin h m) m⟩
    · simp [spoken_addTool, spoken_begin, hrole, opening, speaks]
    all_goals
      unfold addTool
      dsimp only
      split <;> simp [hfirst]
  | user | assistant | unnamed =>
    rw [hrole] at hspoken
    refine ⟨?_, by simp [hfirst], by simp [hfirst], fun hnamed h => ?_⟩
    · simp [spoken_begin, hrole, opening, speaks, hspoken]
    · first
      | exact absurd rfl hnamed
      | simpa [UserOrAssistant, or_imp, forall_and] using role_begin h m

theorem foldl_converting {formatted : List Message} (hstring : ∀ m ∈ formatted, m.content = .string m.text)
    (hne : ∀ m ∈ formatted, m.text ≠ "") :
    (formatted.foldl Converting.step c).claudeMessages.filterMap ClaudeMessage.spoken =
        c.claudeMessages.filterMap ClaudeMessage.spoken ++
          (if c.isFirstMessage then opening (formatted.map Message.role) else []) ++
          (formatted.filter (speaks ·.role)).map (fun m => (m.role, [m.text])) ∧
      (formatted.foldl Converting.step c).systemMessages =
        c.systemMessages ++ (formatted.filter (·.role = .system)).map Message.text ∧
      ((∀ m ∈ formatted, m.role ≠ .unnamed) → UserOrAssistant c.claudeMessages → UserOrAssistant (formatted.foldl Converting.step c).claudeMessages) := by
  induction formatted generalizing c with
  | nil => simp [opening]
  | cons m rest ih =>
    rw [forall_mem_cons] at hstring hne
    obtain ⟨hspoken, hfirst, hsystem, hroles⟩ := @converting_step m c hstring.1 hne.1
    obtain ⟨ihspoken, ihsystem, ihroles⟩ := @ih (c.step m) hstring.2 hne.2
    refine ⟨?_, ?_, fun hnamed h => ?_⟩
    · rw [foldl_cons, ihspoken, hspoken, hfirst]
      cases c.isFirstMessage <;> cases hrole : m.role <;> simp [opening, speaks, hrole]
    · rw [foldl_cons, ihsystem, hsystem]
      by_cases h : m.role = .system <;> simp [h]
    · rw [forall_mem_cons] at hnamed
      exact ihroles hnamed.2 (hroles hnamed.1 h)

/-! ## The whole conversion -/

/-- The result for string contents, whatever the texts are. -/
theorem request_texts {messages : List Message} (hstring : ∀ m ∈ messages, m.content = .string m.text) :
    (requestOpenAI2ClaudeMessage messages).filterMap ClaudeMessage.spoken = opening ((runs messages).map runRole) ++
        ((runs messages).filter (speaks <| runRole ·)).map (fun run => (runRole run, [joinedTexts (run.map Message.text)])) ∧
      requestSystem messages = ((runs messages).filter (runRole · = .system)).map (joinedTexts <| ·.map Message.text) ∧
      ((∀ m ∈ messages, m.role ≠ .unnamed) →
        UserOrAssistant (requestOpenAI2ClaudeMessage messages)) := by
  have hnil := nil_notMem_splitBy joins messages
  have hmem {run : List Message} (hrun : run ∈ runs messages) {m : Message} (hm : m ∈ run) : m ∈ messages := by
    rw [← flatten_splitBy joins messages]
    exact mem_flatten_of_mem hrun hm
  have hpairs := @foldl_runs .init _ hnil (fun _ => isChain_of_mem_splitBy)
    (isChain_getLast_head_splitBy joins messages) (fun _ hrun _ hm => hstring _ (hmem hrun hm))
    (fun _ _ n _ => by simp [joins, Formatting.init])
  rw [flatten_splitBy, Formatting.init, map_nil, nil_append] at hpairs
  obtain ⟨formatted, hformatted⟩ : ∃ l, l = (messages.foldl Formatting.step ⟨[], ⟨.tool, .absent, none, ""⟩⟩).formatMessages :=
    ⟨_, rfl⟩
  rw [← hformatted] at hpairs
  have hrun {m : Message} (hm : m ∈ formatted) : ∃ run ∈ runs messages, run ≠ [] ∧ m.role = runRole run ∧
      m.content = .string (joinedTexts (run.map Message.text)) := by
    have hpair := mem_map_of_mem (f := fun m : Message => (m.role, m.content)) hm
    rw [hpairs] at hpair
    obtain ⟨run, hrun, heq⟩ := mem_map.mp hpair
    exact ⟨run, hrun, fun h => hnil (h ▸ hrun), (Prod.mk.inj heq).1.symm, (Prod.mk.inj heq).2.symm⟩
  have htext : ∀ m ∈ formatted, m.content = .string m.text ∧ m.text ≠ "" := by
    intro m hm
    obtain ⟨run, -, hne, -, hcontent⟩ := hrun hm
    rw [Message.text, hcontent]
    exact ⟨rfl, joinedTexts_ne hne⟩
  obtain ⟨hspoken, hsystem, hroles⟩ := @foldl_converting .init formatted (fun m hm => (htext m hm).1) fun m hm => (htext m hm).2
  refine ⟨?_, ?_, fun hnamed => ?_⟩
  · have hopening := congrArg (map Prod.fst) hpairs
    have hmessages := congrArg
      (fun l => (l.filter (speaks ·.1)).map fun p : Role × Content => (p.1, [p.2.text])) hpairs
    rw [map_map, map_map] at hopening
    rw [filter_map, filter_map, map_map, map_map] at hmessages
    rw [requestOpenAI2ClaudeMessage, Formatting.init, ← hformatted, hspoken]
    exact congrArg₂ (opening · ++ ·) hopening hmessages
  · have hblocks := congrArg (fun l => (l.filter (·.1 = .system)).map fun p : Role × Content => p.2.text) hpairs
    rw [requestSystem, Formatting.init, ← hformatted, hsystem]
    rw [filter_map, filter_map, map_map, map_map] at hblocks
    exact hblocks
  · rw [requestOpenAI2ClaudeMessage, Formatting.init, ← hformatted]
    refine hroles (fun m hm => ?_) (by simp [UserOrAssistant, init])
    obtain ⟨run, hrun, hne, hrole, -⟩ := hrun hm
    obtain ⟨first, rest, rfl⟩ := exists_cons_of_ne_nil hne
    rw [hrole]
    exact hnamed first (hmem hrun (mem_cons_self ..))

/-- A message without a role stays one. -/
theorem named_of_roles {messages : List Message} (hstring : ∀ m ∈ messages, m.content = .string m.text)
    (hroles : UserOrAssistant (requestOpenAI2ClaudeMessage messages)) :
    ∀ m ∈ messages, m.role ≠ .unnamed := by
  intro m hm hunnamed
  rw [← flatten_splitBy joins messages] at hm
  obtain ⟨run, hrun, hm⟩ := mem_flatten.mp hm
  have hrole : runRole run = .unnamed := (role_of_mem (isChain_of_mem_splitBy hrun) hm).symm.trans hunnamed
  have hspoken : (Role.unnamed, [joinedTexts (run.map Message.text)]) ∈
      (requestOpenAI2ClaudeMessage messages).filterMap ClaudeMessage.spoken := by
    rw [(request_texts hstring).1]
    refine mem_append_right _ (mem_map.mpr ⟨run, mem_filter.mpr ⟨hrun, ?_⟩, ?_⟩) <;> rw [hrole]
    rfl
  obtain ⟨produced, hmem, heq⟩ := mem_filterMap.mp hspoken
  have hproduced : produced.role = .unnamed := by
    rw [spoken] at heq
    split at heq
    · cases heq
    · exact congrArg Prod.fst (Option.some.inj heq)
  simpa [hproduced] using hroles produced hmem

theorem map_named {messages : List Message} (h : ∀ m ∈ messages, m.role ≠ .unnamed) : messages.map Message.named = messages :=
  (map_congr_left fun m hm => by rw [Message.named, if_neg (h m hm)]; rfl).trans (map_id _)

/-- The texts are kept by exactly the requests that name every role, leave no text empty and have no quote that is cut. -/
theorem runs_kept_iff {messages : List Message} (hstring : ∀ m ∈ messages, m.content = .string m.text) :
    TextsKept messages ↔
      (∀ m ∈ messages, m.role ≠ .unnamed) ∧ ∀ run ∈ runs messages, runRole run ≠ .tool → KeptRun run := by
  have hkept {run : List Message} (hrun : run ∈ runs messages) :
      joinedTexts (run.map Message.text) = runText run ↔ KeptRun run :=
    joinedTexts_eq_iff fun h => nil_notMem_splitBy joins messages (h ▸ hrun)
  obtain ⟨hmessages, hsystem, hroles⟩ := request_texts hstring
  constructor
  · intro h
    have hnamed := named_of_roles hstring h.roles
    have htexts := hmessages.symm.trans h.conversation
    have hblocks := hsystem.symm.trans h.system
    rw [map_named hnamed] at htexts hblocks
    refine ⟨hnamed, fun run hrun htool => (hkept hrun).mp ?_⟩
    by_cases hrole : runRole run = .system
    · exact map_inj_left.mp hblocks run (mem_filter.mpr ⟨hrun, by simpa using hrole⟩)
    · have heq := map_inj_left.mp (append_cancel_left htexts) run (mem_filter.mpr ⟨hrun, by simpa [speaks] using ⟨hrole, htool⟩⟩)
      simpa using heq
  · rintro ⟨hnamed, hruns⟩
    refine ⟨?_, ?_, hroles hnamed⟩ <;> rw [map_named hnamed]
    · rw [hmessages]
      refine congrArg _ (map_congr_left fun run hrun => ?_)
      obtain ⟨hrun, hspeaks⟩ := mem_filter.mp hrun
      have htool : runRole run ≠ .tool := by simp_all [speaks]
      rw [(hkept hrun).mpr (hruns run hrun htool)]
    · rw [hsystem]
      refine map_congr_left fun run hrun => ?_
      obtain ⟨hrun, hrole⟩ := mem_filter.mp hrun
      have htool : runRole run ≠ .tool := by simp_all
      exact (hkept hrun).mpr (hruns run hrun htool)

def sampleRequest : List Message :=
  [⟨.system, .string "a", none, ""⟩, ⟨.user, .string "\"b\"", none, ""⟩, ⟨.assistant, .string "c", none, ""⟩,
    ⟨.assistant, .string "d", none, ""⟩]

theorem texts_kept_of_four : TextsKept sampleRequest ∧ requestSystem sampleRequest = ["a"] ∧
    (requestOpenAI2ClaudeMessage sampleRequest).filterMap ClaudeMessage.spoken =
      [(.user, ["\"b\""]), (.assistant, ["c d"])] := by
  have h := (@runs_kept_iff sampleRequest (by simp [sampleRequest, Message.text, Content.text])).mpr
    ⟨by decide, fun run hrun _ => by fin_cases hrun <;> exact ⟨by decide, by decide, by decide⟩⟩
  exact ⟨h, h.system, h.conversation⟩

/-- The quotes at the ends of the joined text are cut. -/
theorem quotes_cut : (requestOpenAI2ClaudeMessage
    [⟨.user, .string "\"b\"", none, ""⟩, ⟨.user, .string "\"c\"", none, ""⟩]).filterMap ClaudeMessage.spoken =
      [(.user, ["b\" \"c"])] ∧
    runText [⟨.user, .string "\"b\"", none, ""⟩, ⟨.user, .string "\"c\"", none, ""⟩] = "\"b\" \"c\"" := by
  decide +kernel

end HotAI.Messages
