import HotAI.Relay.RetryBound
import HotAI.Routing.CacheAgreement

/-! # Cross-group retry goes through the groups in order

A token with cross-group retry tries each of its auto groups `RetryTimes + 1` times, by falling priority, before the next
group. Group index, counter and delayed reset have in common the list of slots, a group and a priority each, still ahead. -/
namespace HotAI.Relay
open HotAI.Lib HotAI.Routing List

variable {σ : Type*}

abbrev Slot := String × ℤ

/-! ## The slots that are ahead

`offered group` are the channels of the group for the request, each with its listed priority. -/

section Ahead
variable (offered : String → List (ℤ × ℤ)) (retries : ℕ)

def slotAt (group : String) (retry : ℕ) : Slot := (group, levelOf ((offered group).map Prod.snd) retry)

def slotsFrom (group : String) (retry : ℕ) : List Slot := (List.range' retry (retries + 1 - retry)).map (slotAt offered group)

/-- The slots from the counter `retry` of the first group on. -/
def remaining : ℕ → List String → List Slot
  | _, [] => []
  | retry, group :: rest =>
      if offered group = [] then remaining 0 rest else slotsFrom offered retries group retry ++ remaining 0 rest

structure Ahead (groups : List String) (param : RetryParam) (ctx : Context) (slots : List Slot) : Prop where
  reset_eq : param.resetNextTry = false
  retry_le : param.retry ≤ retries
  slots_eq : remaining offered retries param.retry (groups.drop ctx.groupIndex) = slots

def Answers (cfg : Config) (g : Guards σ) (model requestPath group : String) (view : View) : Prop := ∀ retry s,
  ((view.getRandomSatisfiedChannel cfg.memoryCacheEnabled g group model retry requestPath s).1.1 = none ∧ offered group = []) ∨
    ∃ channel, (view.getRandomSatisfiedChannel cfg.memoryCacheEnabled g group model retry requestPath s).1.1 = some channel ∧
      (channel.id, (slotAt offered group retry).2) ∈ offered group

structure Chosen (groups : List String) (param : RetryParam) (sel : Selection) (slot : Slot) (rest : List Slot) : Prop where
  channel : ∃ channel, sel.channel = some channel ∧ (channel.id, slot.2) ∈ offered slot.1
  err_eq : sel.err = none
  ahead : Ahead offered retries groups sel.param.increaseRetry sel.ctx rest
  retry_lt : sel.param.retry < retries
  first : param.retry = 0 → sel.param = param
  model_eq : sel.param.modelName = param.modelName
  path_eq : sel.param.requestPath = param.requestPath

def Selection.Follows (groups : List String) (param : RetryParam) (sel : Selection) : List Slot → Prop
  | [] => sel.channel = none
  | slot :: rest => Chosen offered retries groups param sel slot rest

end Ahead

variable {offered : String → List (ℤ × ℤ)} {retries : ℕ} {cfg : Config}

theorem slotsFrom_cons (group : String) {retry : ℕ} (h : retry ≤ retries) :
    slotsFrom offered retries group retry = slotAt offered group retry :: slotsFrom offered retries group (retry + 1) := by
  unfold slotsFrom
  rw [show retries + 1 - retry = retries + 1 - (retry + 1) + 1 by omega, range'_succ, map_cons]

variable {groups : List String}

theorem autoGroupLoop_order (hretries : cfg.retryTimes = retries) (hone : 1 ≤ retries) (g : Guards σ) (views : ℕ → View)
    (start : ℕ) (rest : List String) {i : ℕ} {param : RetryParam} {ctx : Context}
    (hrest : groups.drop i = rest) (hstart : start ≤ i) (hretry : start < i → param.retry = 0) (hle : param.retry ≤ retries)
    (hreset : param.resetNextTry = false) (hcross : ctx.crossGroupRetry = true)
    (hanswers : ∀ i, ∀ group ∈ rest, Answers offered cfg g param.modelName param.requestPath group (views i)) (s : σ) :
    (autoGroupLoop cfg g views start i rest param ctx s).1.Follows offered retries groups param
      (remaining offered retries param.retry rest) := by
  induction rest generalizing i param ctx s with
  | nil => rfl
  | cons group rest ih =>
    have hpriority : (if start < i then 0 else param.retry) = param.retry := by
      split
      · next hlt => exact (hretry hlt).symm
      · rfl
    have hdrop : groups.drop (i + 1) = rest := by
      rw [← tail_drop, hrest, tail_cons]
    have hanswer := hanswers i group mem_cons_self param.retry s
    unfold autoGroupLoop
    dsimp only
    rw [hpriority]
    generalize (views i).getRandomSatisfiedChannel cfg.memoryCacheEnabled g group param.modelName param.retry param.requestPath s =
      found at hanswer ⊢
    obtain ⟨⟨pick, err⟩, s'⟩ := found
    rcases hanswer with ⟨hnone, hempty⟩ | ⟨channel, hsome, hoffered⟩
    · -- the group offers nothing
      subst hnone
      have hnext := @ih (i + 1) { param with retry := 0 } { ctx with autoGroupIndex := some (i + 1) } hdrop (by omega)
        (fun _ => rfl) (Nat.zero_le _) hreset hcross (fun j group' hgroup => hanswers j group' (mem_cons_of_mem _ hgroup)) s'
      rw [remaining, if_pos hempty]
      cases hslots : remaining offered retries 0 rest with
      | nil =>
        rw [hslots] at hnext
        exact hnext
      | cons slot slots =>
        rw [hslots] at hnext
        exact { hnext with first := fun hzero => by rw [hnext.first rfl, ← hzero] }
    · subst hsome
      have hne : offered group ≠ [] := ne_nil_of_mem hoffered
      rw [remaining, slotsFrom_cons group hle]
      dsimp only [cons_append]
      split
      · -- the last attempt in this group
        next hlast =>
        have hequal : param.retry = retries := by omega
        refine ⟨⟨channel, rfl, hoffered⟩, rfl, ⟨rfl, Nat.zero_le _, ?_⟩, hone, fun hzero => by omega, rfl, rfl⟩
        change remaining offered retries 0 (groups.drop (i + 1)) = _
        rw [hdrop, hequal, slotsFrom, show retries + 1 - (retries + 1) = 0 by omega]
        rfl
      · next hmore =>
        have hlt : param.retry < retries := by
          by_contra hge
          exact hmore ⟨hcross, by omega⟩
        have hincrease : param.increaseRetry = { param with retry := param.retry + 1 } := by
          rw [RetryParam.increaseRetry, hreset]
          rfl
        refine ⟨⟨channel, rfl, hoffered⟩, rfl, ?_, hlt, fun _ => rfl, rfl, rfl⟩
        rw [hincrease]
        refine ⟨hreset, hlt, ?_⟩
        change remaining offered retries (param.retry + 1) (groups.drop i) = _
        rw [hrest, remaining, if_neg hne]

variable {slots : List Slot}

theorem select_order (hretries : cfg.retryTimes = retries) (hone : 1 ≤ retries) (g : Guards σ) (views : ℕ → View)
    {param : RetryParam} {ctx : Context}
    (hahead : Ahead offered retries (cfg.getUserAutoGroup ctx.userGroup) param ctx slots) (hauto : param.tokenGroup = "auto")
    (hcross : ctx.crossGroupRetry = true) (hanswers : ∀ i, ∀ group ∈ cfg.getUserAutoGroup ctx.userGroup,
      Answers offered cfg g param.modelName param.requestPath group (views i)) (s : σ) :
    (cacheGetRandomSatisfiedChannel cfg g views param ctx s).1.Follows offered retries (cfg.getUserAutoGroup ctx.userGroup) param
      slots := by
  unfold cacheGetRandomSatisfiedChannel
  rw [if_pos hauto]
  split
  · next hnone =>
    have hslots := hahead.slots_eq
    rw [Config.getUserAutoGroup, hnone, filter_nil, drop_nil] at hslots
    rw [← hslots]
    rfl
  · rw [← hahead.slots_eq]
    exact autoGroupLoop_order hretries hone g views _ _ rfl le_rfl (fun h => absurd h (lt_irrefl _)) hahead.retry_le hahead.reset_eq
      hcross (fun i group hgroup => hanswers i group (mem_of_mem_drop hgroup)) s

/-! ## Attempts that fail -/

def failureVerdict (cfg : Config) (a : Attempt NewAPIError) (err : NewAPIError) (st : LoopState) : Verdict :=
  if err.isRateLimit then afterRateLimit cfg a st
  else if err.isAuthError then if (st.param.retry : ℤ) < cfg.retryTimes then .again else .done
  else if shouldRetry cfg st.ctx err (cfg.retryTimes - st.param.retry) then .again else .done

structure Context.Free (ctx : Context) : Prop where
  cross : ctx.crossGroupRetry = true
  affinity : ctx.affinitySkipRetry = false
  specific : ctx.specificChannelId = false

/-- The attempt ends with an error after which the loop goes on while there are retries. -/
structure Fails (cfg : Config) (a : Attempt NewAPIError) : Prop where
  setup : a.setupError = none
  body : a.bodyUnreadable = false
  error : ∃ err, a.upstream = some err ∧
    ∀ st : LoopState, st.ctx.Free → (st.param.retry : ℤ) < cfg.retryTimes → failureVerdict cfg a err st = .again

theorem relayAttempt_fails {g : Gateway σ} {a : Attempt NewAPIError} {st mid : LoopState} {s s' : σ} {channelId : ℤ}
    (hget : getChannel cfg g.toGuards a st s = ((.ok channelId, mid), s')) (hfails : Fails cfg a) (hfree : mid.ctx.Free)
    (hretry : (mid.param.retry : ℤ) < cfg.retryTimes) :
    (relayAttempt cfg g a st s).1 = (.again, { mid.addUsedChannel channelId with hasChannelMeta := true }) := by
  obtain ⟨err, hupstream, hverdict⟩ := hfails.error
  have hagain := hverdict { mid.addUsedChannel channelId with hasChannelMeta := true } ⟨hfree.1, hfree.2, hfree.3⟩ hretry
  unfold relayAttempt
  rw [hget]
  dsimp only
  rw [hfails.body, if_neg Bool.false_ne_true, hupstream]
  unfold failureVerdict at hagain
  dsimp only
  split at hagain
  · next hrate => rw [if_pos hrate, hagain]
  · next hrate =>
    rw [if_neg hrate]
    split at hagain
    · next hauth => rw [if_pos hauth, hagain]
    · next hauth =>
      rw [if_neg hauth]
      split at hagain
      · next hshould => rw [if_pos hshould]
      · cases hagain

variable {g : Guards σ} {st : LoopState} {s : σ}

theorem getChannel_none {ε : Type*} {a : Attempt ε} (hhandled : st.hasChannelMeta = true)
    (hnone : (cacheGetRandomSatisfiedChannel cfg g a.views st.param st.ctx s).1.channel = none) :
    ∃ err, (getChannel cfg g a st s).1.1 = .error err := by
  unfold getChannel
  rw [if_neg (by simp [hhandled])]
  dsimp only
  rw [hnone]
  split
  · exact ⟨_, rfl⟩
  · exact ⟨_, rfl⟩
  · next hsome => cases hsome

variable {channel : Channel}

theorem getChannel_some {ε : Type*} {a : Attempt ε} {sel : Selection}
    (hhandled : st.hasChannelMeta = true) (hsetup : a.setupError = none)
    (hsel : (cacheGetRandomSatisfiedChannel cfg g a.views st.param st.ctx s).1 = sel) (herr : sel.err = none)
    (hchannel : sel.channel = some channel) :
    ∃ s', getChannel cfg g a st s =
      ((.ok channel.id, { st with param := sel.param, ctx := { sel.ctx with channelId := channel.id } }), s') := by
  unfold getChannel
  rw [if_neg (by simp [hhandled])]
  dsimp only
  rw [hsel, herr, hchannel, hsetup]
  exact ⟨_, rfl⟩

structure Going (offered : String → List (ℤ × ℤ)) (retries : ℕ) (cfg : Config) (model requestPath userGroup : String)
    (st : LoopState) (slots : List Slot) : Prop where
  handled : st.hasChannelMeta = true
  auto : st.param.tokenGroup = "auto"
  model_eq : st.param.modelName = model
  path_eq : st.param.requestPath = requestPath
  free : st.ctx.Free
  user_eq : st.ctx.userGroup = userGroup
  ahead : Ahead offered retries (cfg.getUserAutoGroup userGroup) st.param st.ctx slots

def Fits (offered : String → List (ℤ × ℤ)) (slot : Slot) (channelId : ℤ) : Prop := (channelId, slot.2) ∈ offered slot.1

variable {model requestPath userGroup : String}

theorem Going.attempt (hretries : cfg.retryTimes = retries) (hone : 1 ≤ retries) (g : Gateway σ) {a : Attempt NewAPIError}
    (h : Going offered retries cfg model requestPath userGroup st slots) (hfails : Fails cfg a)
    (hanswers : ∀ i, ∀ group ∈ cfg.getUserAutoGroup userGroup, Answers offered cfg g.toGuards model requestPath group (a.views i))
    (s : σ) : match slots with
    | [] => ∃ st', (relayAttempt cfg g a st s).1 = (.done, st') ∧ st'.ctx.useChannel = st.ctx.useChannel
    | slot :: rest => ∃ channelId st', (relayAttempt cfg g a st s).1 = (.again, st') ∧ Fits offered slot channelId ∧
        st'.ctx.useChannel = st.ctx.useChannel ++ [channelId] ∧
        Going offered retries cfg model requestPath userGroup { st' with param := st'.param.increaseRetry } rest := by
  obtain ⟨hhandled, hauto, rfl, rfl, hfree, rfl, hahead⟩ := h
  have hselect := select_order hretries hone g.toGuards a.views hahead hauto hfree.cross hanswers s
  obtain ⟨⟨hctx, htoken, -⟩, -⟩ := select_spec cfg g.toGuards a.views st.param st.ctx s
  cases slots with
  | nil =>
    obtain ⟨err, herr⟩ := getChannel_none hhandled hselect
    obtain ⟨-, hcases⟩ := getChannel_cases cfg g.toGuards a st s
    rw [if_pos hhandled] at hcases
    obtain ⟨-, rfl, ⟨-, channelId, hleaves⟩, -⟩ := hcases
    rcases relayAttempt_cases cfg g a st s with hdone | ⟨channelId, -, hok, -⟩
    · refine ⟨_, hdone, ?_⟩
      rw [hleaves, hctx]
    · rw [herr] at hok
      cases hok
  | cons slot rest =>
    obtain ⟨channel, hchannel, hoffered⟩ := hselect.channel
    obtain ⟨s', hget⟩ := getChannel_some hhandled hfails.setup rfl hselect.err_eq hchannel
    have hmid : Context.Free { (cacheGetRandomSatisfiedChannel cfg g.toGuards a.views st.param st.ctx s).1.ctx with
        channelId := channel.id } := by
      rw [hctx]
      exact ⟨hfree.1, hfree.2, hfree.3⟩
    have hretry := hselect.retry_lt
    have hagain := relayAttempt_fails hget hfails hmid (by rw [hretries]; exact_mod_cast hretry)
    have htokens : ∀ param : RetryParam, param.increaseRetry.tokenGroup = param.tokenGroup ∧
        param.increaseRetry.modelName = param.modelName ∧ param.increaseRetry.requestPath = param.requestPath := by
      intro param
      unfold RetryParam.increaseRetry
      split <;> exact ⟨rfl, rfl, rfl⟩
    refine ⟨channel.id, _, hagain, hoffered, ?_, rfl, ?_, ?_, ?_, ⟨hmid.1, hmid.2, hmid.3⟩, ?_,
      hselect.ahead.1, hselect.ahead.2, hselect.ahead.3⟩
    · change (cacheGetRandomSatisfiedChannel cfg g.toGuards a.views st.param st.ctx s).1.ctx.useChannel ++ _ = _
      rw [hctx]
    · exact (htokens _).1.trans (htoken.trans hauto)
    · exact (htokens _).2.1.trans hselect.model_eq
    · exact (htokens _).2.2.trans hselect.path_eq
    · change (cacheGetRandomSatisfiedChannel cfg g.toGuards a.views st.param st.ctx s).1.ctx.userGroup = _
      rw [hctx]

theorem Going.run (hretries : cfg.retryTimes = retries) (hone : 1 ≤ retries) (g : Gateway σ) (as : List (Attempt NewAPIError))
    (h : Going offered retries cfg model requestPath userGroup st slots)
    (hfails : ∀ a ∈ as, Fails cfg a) (hanswers : ∀ a ∈ as, ∀ i, ∀ group ∈ cfg.getUserAutoGroup userGroup,
      Answers offered cfg g.toGuards model requestPath group (a.views i)) (s : σ) :
    ∃ ids, (retryLoop cfg (relayAttempt cfg g) as st s).1.2.ctx.useChannel = st.ctx.useChannel ++ ids ∧
      List.Forall₂ (Fits offered) (slots.take as.length) ids := by
  induction as generalizing st slots s with
  | nil =>
    refine ⟨[], (append_nil _).symm, ?_⟩
    exact .nil
  | cons a as ih =>
    have hattempt := h.attempt hretries hone g (hfails a mem_cons_self) (hanswers a mem_cons_self) s
    have hle : ¬cfg.retryTimes < st.param.retry := by
      have := h.ahead.retry_le
      omega
    unfold retryLoop
    rw [if_neg hle]
    generalize relayAttempt cfg g a st s = result at hattempt ⊢
    obtain ⟨⟨verdict, st'⟩, s'⟩ := result
    cases slots with
    | nil =>
      obtain ⟨st'', heq, hused⟩ := hattempt
      cases heq
      refine ⟨[], ?_, ?_⟩
      · rw [append_nil]
        exact hused
      · exact .nil
    | cons slot rest =>
      obtain ⟨channelId, st'', heq, hfits, hused, hgoing⟩ := hattempt
      cases heq
      obtain ⟨ids, hids, hall⟩ := ih hgoing (fun a' ha' => hfails a' (mem_cons_of_mem _ ha'))
        (fun a' ha' => hanswers a' (mem_cons_of_mem _ ha')) s'
      refine ⟨channelId :: ids, ?_, .cons hfits hall⟩
      rw [hids, hused, append_assoc]
      rfl

/-! ## A whole request -/

/-- A request of an auto token with cross-group retry, without a channel of its own. -/
structure Incoming.Plain (req : Incoming) : Prop where
  wellFormed : req.wellFormed = true
  unbound : req.specificChannel = none
  allowed : req.allowed = true
  selects : req.route.shouldSelectChannel = true
  noAffinity : req.affinityChannel = none
  auto : req.usingGroup = "auto"
  free : req.ctx.Free
  fresh : req.ctx.autoGroupIndex = none
  unused : req.ctx.useChannel = []

variable {req : Incoming}

theorem Incoming.Plain.distribute_eq (h : req.Plain) (g : Guards σ) (s : σ) :
    distribute cfg g req s = distributeRandom cfg g req s := by
  unfold distribute distributeSelect
  rw [h.wellFormed, h.unbound, h.allowed, h.selects, h.noAffinity]
  rfl

def visited (cfg : Config) (g : Gateway σ) (req : Incoming) (as : List (Attempt NewAPIError)) (s : σ) : List ℤ :=
  match distribute cfg g.toGuards req s with
  | (none, _) => []
  | (some d, s) => (d.relay cfg g req req.usingGroup as s).1.2.ctx.useChannel

theorem visited_order (hretries : cfg.retryTimes = retries) (hone : 1 ≤ retries) (g : Gateway σ) (hplain : req.Plain)
    (as : List (Attempt NewAPIError)) (hfails : ∀ a ∈ as, Fails cfg a)
    (hviews : ∀ views ∈ req.views :: as.map Attempt.views, ∀ i, ∀ group ∈ cfg.getUserAutoGroup req.ctx.userGroup,
      Answers offered cfg g.toGuards req.modelName req.requestPath group (views i)) (s : σ) :
    List.Forall₂ (Fits offered) ((remaining offered retries 0 (cfg.getUserAutoGroup req.ctx.userGroup)).take as.length)
      (visited cfg g req as s) := by
  have hahead : Ahead offered retries (cfg.getUserAutoGroup req.ctx.userGroup) req.param req.ctx
      (remaining offered retries 0 (cfg.getUserAutoGroup req.ctx.userGroup)) := by
    refine ⟨rfl, Nat.zero_le _, ?_⟩
    rw [Context.groupIndex, hplain.fresh]
    rfl
  have hselect := select_order hretries hone g.toGuards req.views hahead hplain.auto hplain.free.cross
    (hviews req.views mem_cons_self) s
  obtain ⟨⟨hctx, -, -⟩, -⟩ := select_spec cfg g.toGuards req.views req.param req.ctx s
  generalize remaining offered retries 0 (cfg.getUserAutoGroup req.ctx.userGroup) = slots at hselect ⊢
  unfold visited
  rw [hplain.distribute_eq]
  unfold distributeRandom
  generalize cacheGetRandomSatisfiedChannel cfg g.toGuards req.views req.param req.ctx s = found at hselect hctx
  obtain ⟨sel, s'⟩ := found
  dsimp only at hselect hctx ⊢
  cases slots with
  | nil =>
    have hnone : sel.channel = none := hselect
    rw [hnone, take_nil]
    cases sel.err <;> exact .nil
  | cons slot rest =>
    obtain ⟨channel, hchannel, hoffered⟩ := hselect.channel
    have hunused : sel.ctx.useChannel = [] := by
      rw [hctx]
      exact hplain.unused
    rw [hchannel, hselect.err_eq]
    dsimp only
    cases as with
    | nil =>
      change List.Forall₂ _ [] sel.ctx.useChannel
      rw [hunused]
      exact .nil
    | cons a as =>
      have hfree : sel.ctx.Free := by
        rw [hctx]
        exact ⟨hplain.free.1, hplain.free.2, hplain.free.3⟩
      have hagain := @relayAttempt_fails σ cfg g a (Distributed.loopState ⟨some channel.id, true, sel.ctx⟩ req req.usingGroup) _ s' s'
        channel.id rfl (hfails a mem_cons_self) ⟨hfree.1, hfree.2, hfree.3⟩ (by rw [hretries]; exact_mod_cast hone)
      have hgoing : Going offered retries cfg req.modelName req.requestPath req.ctx.userGroup
          ⟨req.param.increaseRetry, { sel.ctx with channelId := channel.id, useChannel := sel.ctx.useChannel ++ [channel.id] }, true⟩
          rest := by
        have hnext := hselect.ahead
        rw [hselect.first rfl] at hnext
        refine ⟨rfl, hplain.auto, rfl, rfl, ⟨hfree.1, hfree.2, hfree.3⟩, ?_, hnext.1, hnext.2, hnext.3⟩
        rw [hctx]
      unfold Distributed.relay retryLoop
      rw [if_neg (by rw [hretries]; exact not_lt.mpr (Nat.cast_nonneg _))]
      generalize relayAttempt cfg g a _ s' = result at hagain ⊢
      obtain ⟨⟨verdict, st'⟩, s''⟩ := result
      cases hagain
      obtain ⟨ids, hids, hall⟩ := hgoing.run hretries hone g as (fun a' ha' => hfails a' (mem_cons_of_mem _ ha'))
        (fun a' ha' => hviews a'.views (mem_cons_of_mem _ (mem_map_of_mem (mem_cons_of_mem _ ha')))) s''
      have hused : _ = channel.id :: ids := hids.trans (by rw [hunused]; rfl)
      exact hused ▸ .cons hoffered hall

/-! ## What the tables offer -/

structure Tables where
  cache : ConsistentCache
  database : Database

def Tables.serving (tables : Tables) (model requestPath group : String) : List Ability :=
  tables.database.filterAbilitiesByRequestPath (tables.database.enabledAbilities group model) requestPath

def Tables.offers (tables : Tables) (memoryCacheEnabled : Bool) (model requestPath group : String) : List (ℤ × ℤ) :=
  if memoryCacheEnabled then
    (tables.cache.channelsOf (tables.cache.candidates group model requestPath)).map fun c => (c.id, c.getPriority)
  else (tables.serving model requestPath group).map fun a => (a.channelId, a.priority)

/-- Without the cache, no priority of the group is taken by channels that do not serve the path only. -/
def Tables.EveryLevelServed (tables : Tables) (memoryCacheEnabled : Bool) (model requestPath group : String) : Prop :=
  memoryCacheEnabled = true ∨ ∀ a ∈ tables.database.enabledAbilities group model,
    ∃ b ∈ tables.serving model requestPath group, b.priority = a.priority

def Tables.Shown (tables : Tables) (view : View) : Prop :=
  view.cache = tables.cache.toChannelCache ∧ view.database = tables.database

structure AlwaysOpen (g : Guards σ) : Prop where
  selectable : ∀ id s, (channelSelectable g id s).1 = true
  mark : ∀ id s, (markChannelSelected g id s).1 = true

theorem AlwaysOpen.undisturbed (h : AlwaysOpen g) : g.Undisturbed :=
  ⟨fun _ _ _ => (h.selectable _ _).trans (h.selectable _ _).symm, fun id s _ => h.mark id s⟩

variable {group : String}

theorem getRandomSatisfiedChannel_level {scoring : Scoring} {cache : ConsistentCache}
    {retry : ℕ} {draw : ℕ}
    (h : (getRandomSatisfiedChannel g scoring cache.toChannelCache group model retry requestPath draw s).1.1 = some channel) :
    channel ∈ cache.channelsOf (cache.candidates group model requestPath) ∧
      channel.getPriority = targetPriority (cache.channelsOf (cache.candidates group model requestPath)) retry := by
  unfold getRandomSatisfiedChannel at h
  split at h
  · cases h
  · next id hids =>
    rw [hids]
    split at h
    · cases h
    · next found hfound =>
      have hone : cache.channelsOf [id] = [found] := by
        rw [ChannelCache.channelsOf, filterMap_cons, hfound]
        rfl
      dsimp only at h
      have heq : found = channel := by
        split at h
        · cases h
        · split at h
          · exact Option.some.inj h
          · cases h
      rw [hone, heq, targetPriority_singleton]
      exact ⟨mem_singleton_self _, rfl⟩
  · split at h
    · cases h
    · next channels hchannels =>
      rw [channelsOf_lookupAll hchannels]
      refine ⟨mem_of_selectByPriority h, ?_⟩
      unfold selectByPriority at h
      dsimp only at h
      split at h
      · cases h
      · split at h
        · cases h
        · split at h
          · next drawn _ hdraw =>
            cases h
            obtain ⟨weight, hweight⟩ := mem_of_drawChannel (congrArg Prod.fst hdraw)
            exact priority_of_targetChannels (of_mem_zip hweight).1
          · cases h

variable {tables : Tables}

theorem answers_cached (hopen : AlwaysOpen g) {view : View} (hview : tables.Shown view)
    (hcached : cfg.memoryCacheEnabled = true) (model requestPath group : String) :
    Answers (tables.offers cfg.memoryCacheEnabled model requestPath) cfg g model requestPath group view := by
  intro retry s
  have hoffers : tables.offers cfg.memoryCacheEnabled model requestPath group =
      (tables.cache.channelsOf (tables.cache.candidates group model requestPath)).map fun c => (c.id, c.getPriority) := if_pos hcached
  have hcall : view.getRandomSatisfiedChannel cfg.memoryCacheEnabled g group model retry requestPath s =
      Routing.getRandomSatisfiedChannel g view.scoring tables.cache.toChannelCache group model retry requestPath view.draw s := by
    rw [View.getRandomSatisfiedChannel, hcached, hview.1]
    rfl
  rw [slotAt, hoffers, hcall, map_map]
  cases hpick : (Routing.getRandomSatisfiedChannel g view.scoring tables.cache.toChannelCache group model retry requestPath view.draw
    s).1.1 with
  | none =>
    refine .inl ⟨rfl, map_eq_nil_iff.mpr ?_⟩
    by_contra hne
    -- some channel of the tier is a candidate, so the selection would have found one
    obtain ⟨channel, hchannel, hlevel⟩ := mem_map.mp (levelOf_mem (fun hnil => hne (map_eq_nil_iff.mp hnil)) retry)
    rw [← targetPriority_eq_levelOf hne] at hlevel
    obtain ⟨id, hid, hget⟩ := mem_filterMap.mp hchannel
    obtain ⟨found, hfound⟩ := (getRandomSatisfiedChannel_isSome_iff hopen.undisturbed view.scoring tables.cache group model retry
      requestPath view.draw s).mpr ⟨id, hid, by rw [ChannelCache.inTargetTier, hget, Option.map_some, hlevel], hopen.selectable id s⟩
    rw [hfound] at hpick
    cases hpick
  | some channel =>
    obtain ⟨hmem, hlevel⟩ := getRandomSatisfiedChannel_level hpick
    refine .inr ⟨channel, rfl, mem_map.mpr ⟨channel, hmem, ?_⟩⟩
    rw [hlevel, targetPriority_eq_levelOf (ne_nil_of_mem hmem)]
    rfl

theorem serving_levels (hserved : tables.EveryLevelServed false model requestPath group)
    (p : ℤ) : p ∈ (tables.database.enabledAbilities group model).map Ability.priority ↔
      p ∈ (tables.serving model requestPath group).map Ability.priority := by
  rw [mem_map, mem_map]
  constructor
  · rintro ⟨a, ha, rfl⟩
    exact hserved.resolve_left Bool.false_ne_true a ha
  · rintro ⟨a, ha, rfl⟩
    exact ⟨a, ((mem_filterAbilitiesByRequestPath tables.database).mp ha).1, rfl⟩

theorem answers_uncached {view : View} (hview : tables.Shown view) (hcached : cfg.memoryCacheEnabled = false)
    (hserved : tables.EveryLevelServed cfg.memoryCacheEnabled model requestPath group) :
    Answers (tables.offers cfg.memoryCacheEnabled model requestPath) cfg g model requestPath group view := by
  intro retry s
  have hoffers : tables.offers cfg.memoryCacheEnabled model requestPath group =
      (tables.serving model requestPath group).map fun a => (a.channelId, a.priority) := by
    rw [hcached]
    rfl
  have hcall : view.getRandomSatisfiedChannel cfg.memoryCacheEnabled g group model retry requestPath s =
      (tables.database.getChannel group model retry requestPath view.draw, s) := by
    rw [View.getRandomSatisfiedChannel, hcached, hview.2]
    rfl
  rw [slotAt, hoffers, hcall, map_map]
  rw [hcached] at hserved
  have hlevels := serving_levels hserved
  by_cases hnone : tables.database.enabledAbilities group model = []
  · refine .inl ⟨getChannel_without_rows _ _ _ retry hnone requestPath view.draw, map_eq_nil_iff.mpr ?_⟩
    rw [eq_nil_iff_forall_not_mem]
    intro a ha
    rw [Tables.serving, mem_filterAbilitiesByRequestPath, hnone] at ha
    cases ha.1
  · have hmem : ∀ a : Ability, a ∈ tables.database.filterAbilitiesByRequestPath (((tables.database.enabledAbilities group model).filter
        fun a => a.priority = levelOf ((tables.database.enabledAbilities group model).map Ability.priority) retry).insertionSort
          fun a b => b.weight ≤ a.weight) requestPath ↔ a ∈ tables.serving model requestPath group ∧
        a.priority = levelOf ((tables.serving model requestPath group).map Ability.priority) retry := by
      intro a
      rw [mem_filterAbilitiesByRequestPath, mem_insertionSort, mem_filter, decide_eq_true_eq, levelOf_congr hlevels,
        Tables.serving, @mem_filterAbilitiesByRequestPath tables.database (tables.database.enabledAbilities group model)]
      exact ⟨fun h => ⟨⟨h.1.1, h.2⟩, h.1.2⟩, fun h => ⟨⟨h.1.1, h.2⟩, h.1.2⟩⟩
    have hserving : (tables.serving model requestPath group).map Ability.priority ≠ [] := by
      obtain ⟨a, ha⟩ := exists_mem_of_ne_nil _ hnone
      exact ne_nil_of_mem ((hlevels a.priority).mp (mem_map_of_mem ha))
    obtain ⟨first, hfirst, hlevel⟩ := mem_map.mp (levelOf_mem hserving retry)
    have hne := ne_nil_of_mem ((hmem first).mpr ⟨hfirst, hlevel⟩)
    refine .inr ?_
    unfold Database.getChannel
    rw [getChannelQuery_eq tables.database group model retry hnone]
    dsimp only
    obtain ⟨a, ha, hdrawn⟩ := exists_drawn hne view.draw
    obtain ⟨hserves, hpriority⟩ := (hmem a).mp ha
    have hfits : (a.channelId, levelOf ((tables.serving model requestPath group).map Ability.priority) retry) ∈
        (tables.serving model requestPath group).map fun a => (a.channelId, a.priority) :=
      mem_map.mpr ⟨a, hserves, by rw [hpriority]⟩
    rw [if_neg hne, hdrawn]
    cases hget : tables.database.channels.get a.channelId with
    | none => exact ⟨_, rfl, hfits⟩
    | some channel =>
      refine ⟨channel, rfl, ?_⟩
      rw [Table.key_of_get hget]
      exact hfits

/-! ## The order -/

def groupSlots (offered : String → List (ℤ × ℤ)) (retries : ℕ) (group : String) : List Slot :=
  let levels := ((offered group).map Prod.snd).dedup.insertionSort (· ≥ ·)
  (levels ++ List.replicate (retries + 1 - levels.length) (levels.getLastD 0)).map (group, ·)

theorem slotsFrom_zero (hne : offered group ≠ [])
    (hlevels : (((offered group).map Prod.snd).dedup.insertionSort (· ≥ ·)).length ≤ retries + 1) :
    slotsFrom offered retries group 0 = groupSlots offered retries group := by
  have hpos := levels_length_pos (fun hnil => hne (map_eq_nil_iff.mp hnil) : (offered group).map Prod.snd ≠ [])
  unfold slotsFrom groupSlots slotAt levelOf
  generalize ((offered group).map Prod.snd).dedup.insertionSort (· ≥ ·) = levels at hlevels hpos ⊢
  dsimp only
  rw [← range_eq_range']
  refine ext_getElem (by simp; omega) fun k hk hk' => ?_
  rw [getElem_map, getElem_map, getElem_range]
  by_cases hin : k < levels.length
  · rw [getElem_append_left hin, Nat.min_eq_left (by omega), getD_eq_getElem _ _ hin]
  · rw [getElem_append_right (by omega), getElem_replicate, Nat.min_eq_right (by omega),
      getD_eq_getElem _ _ (by omega), getLastD_eq_getLast?, getLast?_eq_getElem?, getElem?_eq_getElem (by omega)]
    rfl

theorem remaining_zero (hlevels : ∀ group ∈ groups,
      (((offered group).map Prod.snd).dedup.insertionSort (· ≥ ·)).length ≤ retries + 1) :
    remaining offered retries 0 groups = (groups.filter fun group => offered group ≠ []).flatMap (groupSlots offered retries) := by
  induction groups with
  | nil => rfl
  | cons group rest ih =>
    obtain ⟨hgroup, hrest⟩ := forall_mem_cons.mp hlevels
    rw [remaining, ih hrest]
    split
    · next hnil => rw [filter_cons_of_neg (by simp [hnil])]
    · next hne => rw [filter_cons_of_pos (by simpa using hne), flatMap_cons, slotsFrom_zero hne hgroup]

/-- Group after group, each from its highest priority to its lowest. -/
def Tables.schedule (tables : Tables) (cfg : Config) (req : Incoming) : List Slot :=
  ((cfg.getUserAutoGroup req.ctx.userGroup).filter fun group =>
    tables.offers cfg.memoryCacheEnabled req.modelName req.requestPath group ≠ []).flatMap
      (groupSlots (tables.offers cfg.memoryCacheEnabled req.modelName req.requestPath) cfg.retryTimes.toNat)

/-- The attempts of an auto token with cross-group retry go through the schedule in order, each on a channel of its slot. -/
theorem attempts_follow_schedule (cfg : Config) (g : Gateway σ) (tables : Tables) (req : Incoming) (as : List (Attempt NewAPIError))
    (s : σ) (hretries : 1 ≤ cfg.retryTimes) (hopen : AlwaysOpen g.toGuards) (hplain : req.Plain) (hfails : ∀ a ∈ as, Fails cfg a)
    (hshown : ∀ views ∈ req.views :: as.map Attempt.views, ∀ i, tables.Shown (views i))
    (hlevels : ∀ group ∈ cfg.getUserAutoGroup req.ctx.userGroup, ((((tables.offers cfg.memoryCacheEnabled req.modelName
      req.requestPath group).map Prod.snd).dedup.length : ℕ) : ℤ) ≤ cfg.retryTimes + 1)
    (hserved : ∀ group ∈ cfg.getUserAutoGroup req.ctx.userGroup,
      tables.EveryLevelServed cfg.memoryCacheEnabled req.modelName req.requestPath group) :
    List.Forall₂ (Fits (tables.offers cfg.memoryCacheEnabled req.modelName req.requestPath))
      ((tables.schedule cfg req).take as.length) (visited cfg g req as s) := by
  have hnat : cfg.retryTimes = (cfg.retryTimes.toNat : ℤ) := by omega
  have hanswers : ∀ views ∈ req.views :: as.map Attempt.views, ∀ i, ∀ group ∈ cfg.getUserAutoGroup req.ctx.userGroup,
      Answers (tables.offers cfg.memoryCacheEnabled req.modelName req.requestPath) cfg g.toGuards req.modelName req.requestPath group
        (views i) := by
    intro views hviews i group hgroup
    cases hcached : cfg.memoryCacheEnabled with
    | true => exact hcached ▸ answers_cached hopen (hshown views hviews i) hcached _ _ group
    | false => exact hcached ▸ answers_uncached (hshown views hviews i) hcached (hserved group hgroup)
  have horder := visited_order hnat (by omega) g hplain as hfails hanswers s
  rwa [remaining_zero fun group hgroup => ?_] at horder
  have hle := hlevels group hgroup
  rw [length_insertionSort]
  omega

/-- Channel 1 is an advanced custom channel without a route, and has the highest priority of its group. -/
def twoGroups : Tables where
  cache :=
    { group2model2channels := fun group model => if model = "gpt" then if group = "a" then [1, 2] else if group = "b" then [3] else []
        else []
      channelsIDM := ⟨[⟨1, 58, none, some 10, 0, none, none⟩, ⟨2, 1, none, some 5, 0, none, none⟩, ⟨3, 1, none, none, 0, none, none⟩],
        by decide⟩
      channelCostIndex := fun _ _ _ => 0
      channel2advancedCustomConfig := fun _ => none
      listed := by
        intro group model id hid
        split at hid
        · split at hid
          · fin_cases hid <;> decide
          · split at hid
            · fin_cases hid
              decide
            · cases hid
        · cases hid }
  database :=
    { abilities := [⟨"a", "gpt", 1, true, 10, 0⟩, ⟨"a", "gpt", 2, true, 5, 0⟩, ⟨"b", "gpt", 3, true, 0, 0⟩]
      channels := ⟨[⟨1, 58, none, some 10, 0, none, none⟩, ⟨2, 1, none, some 5, 0, none, none⟩, ⟨3, 1, none, none, 0, none, none⟩],
        by decide⟩
      advancedCustom := fun _ => none }

def twoGroupsView : View := ⟨twoGroups.cache.toChannelCache, twoGroups.database, sampleScoring, 0⟩

def autoConfig (memoryCacheEnabled : Bool) : Config :=
  { sampleConfig memoryCacheEnabled with autoGroups := ["a", "b"] }

def autoRequest : Incoming where
  wellFormed := true
  specificChannel := none
  allowed := true
  affinityChannel := none
  views _ := twoGroupsView
  usingGroup := "auto"
  modelName := "gpt"
  requestPath := "/v1/chat/completions"
  ctx := ⟨"default", true, false, false, none, 0, []⟩
  route := .relay true []

def failedAttempt : Attempt NewAPIError := { sampleAttempt (some upstreamDown) with views := fun _ => twoGroupsView }

def openGateway : Gateway Unit := { openGuards with markSuccess := fun _ _ => (), markFailure := fun _ _ => () }

theorem failedAttempt_fails (memoryCacheEnabled : Bool) : Fails (autoConfig memoryCacheEnabled) failedAttempt := by
  refine ⟨rfl, rfl, upstreamDown, rfl, fun st hfree hretry => ?_⟩
  have hleft : ¬(autoConfig memoryCacheEnabled).retryTimes - st.param.retry ≤ 0 := by omega
  unfold failureVerdict shouldRetry
  rw [hfree.affinity, hfree.specific, if_neg hleft]
  rfl

/-- With the cache, channel 2 is tried twice and then channel 3. -/
theorem attempts_follow_schedule_cached :
    twoGroups.schedule (autoConfig true) autoRequest = [("a", 5), ("a", 5), ("b", 0), ("b", 0)] ∧
      List.Forall₂ (Fits (twoGroups.offers true "gpt" "/v1/chat/completions")) [("a", 5), ("a", 5), ("b", 0)]
        (visited (autoConfig true) openGateway autoRequest (List.replicate 3 failedAttempt) ()) := by
  have hschedule : twoGroups.schedule (autoConfig true) autoRequest = [("a", 5), ("a", 5), ("b", 0), ("b", 0)] := by decide +kernel
  have horder := attempts_follow_schedule (autoConfig true) openGateway twoGroups autoRequest (replicate 3 failedAttempt) ()
    (by decide) ⟨fun _ _ => rfl, fun _ _ => rfl⟩ ⟨rfl, rfl, rfl, rfl, rfl, rfl, ⟨rfl, rfl, rfl⟩, rfl, rfl⟩
    (fun a ha => eq_of_mem_replicate ha ▸ failedAttempt_fails true) ?_ ?_ (fun group _ => .inl rfl)
  · rw [hschedule] at horder
    exact ⟨hschedule, horder⟩
  · intro views hviews i
    have hview : views = fun _ => twoGroupsView := by
      rcases mem_cons.mp hviews with rfl | hviews
      · rfl
      · rw [map_replicate] at hviews
        exact eq_of_mem_replicate hviews
    rw [hview]
    exact ⟨rfl, rfl⟩
  · decide +kernel

/-- Without the cache the first attempt is in group `b`: nothing of group `a`'s highest priority serves the path. -/
theorem uncached_skips_group : ¬List.Forall₂ (Fits (twoGroups.offers false "gpt" "/v1/chat/completions"))
      ((twoGroups.schedule (autoConfig false) autoRequest).take 1) (visited (autoConfig false) openGateway autoRequest [failedAttempt] ()) := by
  have hschedule : (twoGroups.schedule (autoConfig false) autoRequest).take 1 = [("a", 5)] := by decide +kernel
  have hvisited : visited (autoConfig false) openGateway autoRequest [failedAttempt] () = [3] := by decide +kernel
  rw [hschedule, hvisited]
  rintro (_ | ⟨hfits, -⟩)
  revert hfits
  unfold Fits
  decide +kernel

end HotAI.Relay
