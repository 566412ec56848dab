import HotAI.Relay.Slots

/-! # The retry loop ends

Selection may set the retry counter back and hold up its next increment, but only when it leaves a group for a later one.
What is left to try, over the groups still ahead, shrinks with every attempt. -/
namespace HotAI.Relay
open HotAI.Lib HotAI.Routing List

variable {σ : Type*}

/-- `ContextKeyAutoGroupIndex`, which reads as zero while it is not set. -/
def Context.groupIndex (ctx : Context) : ℕ := ctx.autoGroupIndex.getD 0

/-! ## What a selection does to counter and index -/

/-- Found in group `j`: the next attempt stays there, or goes on behind it once the group's retries are used up. -/
def FoundIn (cfg : Config) (param : RetryParam) (ctx : Context) (j : ℕ) (sel : Selection) : Prop :=
  (sel.ctx.groupIndex = j ∧ sel.param.retry = (if ctx.groupIndex < j then 0 else param.retry) ∧
      sel.param.resetNextTry = param.resetNextTry) ∨
    (sel.ctx.groupIndex = j + 1 ∧ sel.param.retry = 0 ∧ sel.param.resetNextTry = true ∧
      cfg.retryTimes ≤ (if ctx.groupIndex < j then 0 else param.retry : ℕ))

structure Forward (param : RetryParam) (ctx : Context) (sel : Selection) : Prop where
  ctx_eq : sel.ctx = { ctx with autoGroupIndex := sel.ctx.autoGroupIndex }
  tokenGroup_eq : sel.param.tokenGroup = param.tokenGroup
  index_le : ctx.groupIndex ≤ sel.ctx.groupIndex

theorem autoGroupLoop_spec (cfg : Config) (g : Guards σ) (views : ℕ → View) (start : ℕ) (groups : List String) {i : ℕ}
    {param : RetryParam} {ctx : Context} (hindex : ctx.groupIndex = i) (hstart : start ≤ i) (hretry : start < i → param.retry = 0)
    (s : σ) :
    Forward param ctx (autoGroupLoop cfg g views start i groups param ctx s).1 ∧
      ((autoGroupLoop cfg g views start i groups param ctx s).1.channel.isSome = true →
        ∃ j, i ≤ j ∧ j < i + groups.length ∧ FoundIn cfg param ctx j (autoGroupLoop cfg g views start i groups param ctx s).1) := by
  induction groups generalizing i param ctx s with
  | nil => exact ⟨⟨rfl, rfl, le_rfl⟩, fun h => by cases h⟩
  | cons group rest ih =>
    have hpriority : (if start < i then 0 else param.retry) = param.retry := by
      split
      · next hlt => exact (hretry hlt).symm
      · rfl
    have hhere : (if ctx.groupIndex < i then 0 else param.retry) = param.retry := if_neg hindex.not_lt
    unfold autoGroupLoop
    dsimp only
    split
    · -- nothing in this group
      obtain ⟨⟨hctx, htoken, hle⟩, hfound⟩ := @ih (i + 1) { param with retry := 0 } { ctx with autoGroupIndex := some (i + 1) }
        rfl (by omega) (fun _ => rfl) ((views i).getRandomSatisfiedChannel cfg.memoryCacheEnabled g group param.modelName
          (if start < i then 0 else param.retry) param.requestPath s).2
      have hle' : i + 1 ≤ _ := hle
      refine ⟨⟨hctx, htoken, by omega⟩, fun hsome => ?_⟩
      obtain ⟨j, hij, hj, hin⟩ := hfound hsome
      have hzero : (if ctx.groupIndex < j then 0 else param.retry) = 0 := if_pos (by omega)
      have hzero' : (if Context.groupIndex { ctx with autoGroupIndex := some (i + 1) } < j then 0 else 0) = 0 := ite_self _
      rw [FoundIn, hzero'] at hin
      refine ⟨j, by omega, ?_, ?_⟩
      · rw [length_cons]
        omega
      · rw [FoundIn, hzero]
        exact hin
    · have hj : i < i + (group :: rest).length := by
        rw [length_cons]
        omega
      rw [hpriority]
      split
      · next hcross =>
        refine ⟨⟨rfl, rfl, ?_⟩, fun _ => ⟨i, le_rfl, hj, Or.inr ⟨rfl, rfl, rfl, ?_⟩⟩⟩
        · rw [hindex]
          exact Nat.le_succ i
        · rw [hhere]
          exact hcross.2
      · exact ⟨⟨rfl, rfl, hindex.le⟩, fun _ => ⟨i, le_rfl, hj, Or.inl ⟨rfl, hhere.symm, rfl⟩⟩⟩

def Config.groupCount (cfg : Config) (ctx : Context) : ℕ := (cfg.getUserAutoGroup ctx.userGroup).length

variable (cfg : Config) (g : Gateway σ)

theorem select_spec (g : Guards σ) (views : ℕ → View) (param : RetryParam) (ctx : Context) (s : σ) :
    Forward param ctx (cacheGetRandomSatisfiedChannel cfg g views param ctx s).1 ∧
      ((cacheGetRandomSatisfiedChannel cfg g views param ctx s).1.channel.isSome = true →
        if param.tokenGroup = "auto" then
          ∃ j, ctx.groupIndex ≤ j ∧ j < cfg.groupCount ctx ∧ FoundIn cfg param ctx j (cacheGetRandomSatisfiedChannel cfg g views param ctx s).1
        else (cacheGetRandomSatisfiedChannel cfg g views param ctx s).1.param = param) := by
  unfold cacheGetRandomSatisfiedChannel
  split
  · split
    · exact ⟨⟨rfl, rfl, le_rfl⟩, fun h => by cases h⟩
    · obtain ⟨hforward, hfound⟩ := @autoGroupLoop_spec σ cfg g views ctx.groupIndex
        ((cfg.getUserAutoGroup ctx.userGroup).drop ctx.groupIndex) ctx.groupIndex param ctx rfl le_rfl
        (fun h => absurd h (lt_irrefl _)) s
      refine ⟨hforward, fun hsome => ?_⟩
      obtain ⟨j, hij, hj, hin⟩ := hfound hsome
      rw [length_drop] at hj
      refine ⟨j, hij, ?_, hin⟩
      unfold Config.groupCount
      omega
  · dsimp only
    split
    · exact ⟨⟨rfl, rfl, le_rfl⟩, fun _ => rfl⟩
    · exact ⟨⟨rfl, rfl, le_rfl⟩, fun _ => rfl⟩

/-! ## What is left to try -/

def LoopState.left (cfg : Config) (st : LoopState) : ℕ :=
  if st.param.tokenGroup = "auto" then
    (cfg.groupCount st.ctx - st.ctx.groupIndex) * (cfg.retryTimes.toNat + 1) - st.param.retry
  else cfg.retryTimes.toNat + 1 - st.param.retry

theorem groups_behind {n i j : ℕ} (k : ℕ) (hij : i ≤ j) (hj : j < n) : (n - (j + 1)) * k + k ≤ (n - i) * k := by
  rw [← Nat.succ_mul]
  exact Nat.mul_le_mul_right k (by omega)

variable {st : LoopState}

theorem left_increaseRetry (g : Guards σ) (views : ℕ → View) (s : σ)
    (hreset : st.param.resetNextTry = false) (hretry : (st.param.retry : ℤ) ≤ cfg.retryTimes) {sel : Selection}
    (hsel : (cacheGetRandomSatisfiedChannel cfg g views st.param st.ctx s).1 = sel) (hsome : sel.channel.isSome = true) (st' : LoopState)
    (hparam : st'.param = sel.param.increaseRetry) (hindex : st'.ctx.groupIndex = sel.ctx.groupIndex)
    (huser : st'.ctx.userGroup = st.ctx.userGroup) :
    st'.left cfg + 1 ≤ st.left cfg ∧ st'.param.resetNextTry = false := by
  obtain ⟨hforward, hfound⟩ := select_spec cfg g views st.param st.ctx s
  rw [hsel] at hforward hfound
  have htoken : st'.param.tokenGroup = st.param.tokenGroup := by
    rw [hparam, RetryParam.increaseRetry, ← hforward.tokenGroup_eq]
    split <;> rfl
  have hcount : cfg.groupCount st'.ctx = cfg.groupCount st.ctx := by rw [Config.groupCount, Config.groupCount, huser]
  have hauto := hfound hsome
  unfold LoopState.left
  rw [htoken, hcount, hindex, hparam]
  by_cases htype : st.param.tokenGroup = "auto"
  · rw [if_pos htype] at hauto
    obtain ⟨j, hij, hj, hin⟩ := hauto
    have hbehind := groups_behind (cfg.retryTimes.toNat + 1) hij hj
    rw [if_pos htype, if_pos htype]
    rcases hin with ⟨hgroup, hcounter, hflag⟩ | ⟨hgroup, -, hflag, hused⟩
    · -- the attempt stays in its group
      have hsplit : (cfg.groupCount st.ctx - j) * (cfg.retryTimes.toNat + 1) =
          (cfg.groupCount st.ctx - (j + 1)) * (cfg.retryTimes.toNat + 1) + (cfg.retryTimes.toNat + 1) := by
        rw [← Nat.succ_mul]
        congr 1
        omega
      rw [RetryParam.increaseRetry, hflag, hreset, if_neg Bool.false_ne_true, hgroup, hcounter]
      refine ⟨?_, rfl⟩
      dsimp only
      by_cases hlt : st.ctx.groupIndex < j
      · have hmore := groups_behind (cfg.retryTimes.toNat + 1) (show st.ctx.groupIndex ≤ j - 1 by omega) (show j - 1 < cfg.groupCount st.ctx by omega)
        rw [Nat.sub_add_cancel (by omega : 1 ≤ j)] at hmore
        omega
      · rw [if_neg hlt]
        omega
    · -- the next attempt is made in a later group
      rw [RetryParam.increaseRetry, hflag, hgroup]
      refine ⟨?_, rfl⟩
      split at hused <;> omega
  · rw [if_neg htype] at hauto
    rw [if_neg htype, if_neg htype, hauto, RetryParam.increaseRetry, hreset, if_neg Bool.false_ne_true]
    exact ⟨by dsimp only; omega, rfl⟩

/-! ## One attempt -/

def Selection.Leaves (sel : Selection) (st : LoopState) : Prop :=
  st.param = sel.param ∧ ∃ channelId, st.ctx = { sel.ctx with channelId }

theorem getChannel_cases {ε : Type*} (g : Guards σ) (a : Attempt ε) (st : LoopState) (s : σ) :
    ((getChannel cfg g a st s).1.2.hasChannelMeta = st.hasChannelMeta) ∧
      if st.hasChannelMeta then
        ∃ sel, (cacheGetRandomSatisfiedChannel cfg g a.views st.param st.ctx s).1 = sel ∧
          sel.Leaves (getChannel cfg g a st s).1.2 ∧ (∀ id, (getChannel cfg g a st s).1.1 = .ok id → sel.channel.isSome = true)
      else (getChannel cfg g a st s).1.2 = st := by
  unfold getChannel
  by_cases hmeta : st.hasChannelMeta = true
  · rw [if_neg (by simp [hmeta]), if_pos hmeta]
    dsimp only
    generalize (cacheGetRandomSatisfiedChannel cfg g a.views st.param st.ctx s).1 = sel
    obtain ⟨channel, -, err, -, ctx⟩ := sel
    cases err with
    | some err => exact ⟨rfl, _, rfl, ⟨rfl, ctx.channelId, rfl⟩, fun id h => by cases h⟩
    | none =>
      cases channel with
      | none => exact ⟨rfl, _, rfl, ⟨rfl, ctx.channelId, rfl⟩, fun id h => by cases h⟩
      | some channel =>
        cases a.setupError with
        | some err => exact ⟨rfl, _, rfl, ⟨rfl, channel.id, rfl⟩, fun id h => by cases h⟩
        | none => exact ⟨rfl, _, rfl, ⟨rfl, channel.id, rfl⟩, fun _ _ => rfl⟩
  · rw [if_pos (by simp [hmeta]), if_neg hmeta]
    exact ⟨rfl, rfl⟩

theorem relayAttempt_cases (a : Attempt NewAPIError) (st : LoopState) (s : σ) :
    (relayAttempt cfg g a st s).1 = (.done, (getChannel cfg g.toGuards a st s).1.2) ∨
      ∃ channelId handled, (getChannel cfg g.toGuards a st s).1.1 = .ok channelId ∧
        (relayAttempt cfg g a st s).1.2 = { (getChannel cfg g.toGuards a st s).1.2.addUsedChannel channelId with hasChannelMeta := handled } ∧
        ((relayAttempt cfg g a st s).1.1 = .again → handled = true) := by
  unfold relayAttempt
  generalize getChannel cfg g.toGuards a st s = found
  obtain ⟨⟨result, st'⟩, -⟩ := found
  cases result with
  | error err => exact Or.inl rfl
  | ok channelId =>
    refine Or.inr ⟨channelId, ?_⟩
    dsimp only
    cases a.bodyUnreadable with
    | true => exact ⟨st'.hasChannelMeta, rfl, rfl, fun h => by cases h⟩
    | false =>
      refine ⟨true, rfl, ?_, fun _ => rfl⟩
      rw [if_neg Bool.false_ne_true]
      split
      · rfl
      · split
        · rfl
        · split
          · rfl
          · split <;> rfl

/-- What the loop keeps of its state: the counter is never held up between attempts. -/
structure LoopState.Ready (st : LoopState) : Prop where
  reset_eq : st.param.resetNextTry = false
  first : st.hasChannelMeta = false → st.param.retry = 0

def LoopState.budget (cfg : Config) (st : LoopState) : ℕ :=
  if st.hasChannelMeta then st.left cfg else 1 + LoopState.left cfg { st with param := st.param.increaseRetry }

def LoopState.used (st : LoopState) : ℕ := st.ctx.useChannel.length

theorem relayAttempt_step (a : Attempt NewAPIError) (s : σ)
    (hready : st.Ready) (hretry : (st.param.retry : ℤ) ≤ cfg.retryTimes) :
    st.ctx.groupIndex ≤ (relayAttempt cfg g a st s).1.2.ctx.groupIndex ∧
      (relayAttempt cfg g a st s).1.2.used ≤ st.used + st.budget cfg ∧
      ((relayAttempt cfg g a st s).1.1 = .again → (relayAttempt cfg g a st s).1.2.used = st.used + 1 ∧
        LoopState.Ready { (relayAttempt cfg g a st s).1.2 with param := (relayAttempt cfg g a st s).1.2.param.increaseRetry } ∧
        1 + LoopState.budget cfg { (relayAttempt cfg g a st s).1.2 with param := (relayAttempt cfg g a st s).1.2.param.increaseRetry } ≤
          st.budget cfg) := by
  obtain ⟨-, hget⟩ := getChannel_cases cfg g.toGuards a st s
  have hcases := relayAttempt_cases cfg g a st s
  generalize relayAttempt cfg g a st s = result at hcases ⊢
  generalize getChannel cfg g.toGuards a st s = found at hget hcases
  obtain ⟨⟨verdict, st'⟩, s'⟩ := result
  obtain ⟨⟨channel, mid⟩, s''⟩ := found
  dsimp only at hget hcases ⊢
  by_cases hmeta : st.hasChannelMeta = true
  · rw [if_pos hmeta] at hget
    obtain ⟨sel, hsel, ⟨hparam, channelId, hctx⟩, hsome⟩ := hget
    obtain ⟨⟨hsame, -, hindex⟩, -⟩ := select_spec cfg g.toGuards a.views st.param st.ctx s
    rw [hsel] at hsame hindex
    have hmid : mid.ctx.groupIndex = sel.ctx.groupIndex := by rw [hctx]; rfl
    have hused : mid.ctx.useChannel = st.ctx.useChannel := by rw [hctx, hsame]
    have huser : mid.ctx.userGroup = st.ctx.userGroup := by rw [hctx, hsame]
    rcases hcases with heq | ⟨id, handled, hok, hst, hagain⟩
    · cases heq
      refine ⟨hmid ▸ hindex, ?_, fun h => by cases h⟩
      rw [LoopState.used, hused]
      exact Nat.le_add_right _ _
    · subst hst
      obtain ⟨hleft, hflag⟩ := left_increaseRetry cfg g.toGuards a.views s hready.reset_eq hretry hsel (hsome id hok)
        { mid.addUsedChannel id with hasChannelMeta := true, param := mid.param.increaseRetry }
        (by rw [hparam]) (by rw [← hmid]; rfl) huser
      have hone : LoopState.used { mid.addUsedChannel id with hasChannelMeta := handled } = st.used + 1 := by
        change (mid.ctx.useChannel ++ [id]).length = _
        rw [hused, length_append]
        rfl
      have hbudget : st.budget cfg = st.left cfg := if_pos hmeta
      refine ⟨hmid ▸ hindex, hone.le.trans (by omega), fun h => ⟨hone, ?_, ?_⟩⟩
      · cases hagain h
        exact ⟨hflag, fun hfalse => by cases hfalse⟩
      · cases hagain h
        rw [hbudget, Nat.add_comm]
        exact hleft
  · rw [if_neg hmeta] at hget
    subst hget
    have hbudget : mid.budget cfg = 1 + LoopState.left cfg { mid with param := mid.param.increaseRetry } := if_neg hmeta
    rcases hcases with heq | ⟨id, handled, -, hst, hagain⟩
    · cases heq
      exact ⟨le_rfl, Nat.le_add_right _ _, fun h => by cases h⟩
    · subst hst
      have hone : LoopState.used { mid.addUsedChannel id with hasChannelMeta := handled } = mid.used + 1 :=
        length_append
      refine ⟨le_rfl, hone.le.trans (by omega), fun h => ⟨hone, ?_, ?_⟩⟩
      · refine ⟨?_, fun hfalse => ?_⟩
        · change mid.param.increaseRetry.resetNextTry = false
          rw [RetryParam.increaseRetry, hready.reset_eq]
          rfl
        · cases hagain h
          cases hfalse
      · cases hagain h
        rw [hbudget]
        exact le_rfl

/-! ## The loop -/

theorem retryLoop_spec (as : List (Attempt NewAPIError)) (hready : st.Ready) (s : σ) :
    st.ctx.groupIndex ≤ (retryLoop cfg (relayAttempt cfg g) as st s).1.2.ctx.groupIndex ∧
      (retryLoop cfg (relayAttempt cfg g) as st s).1.2.used ≤ st.used + st.budget cfg ∧
      ((retryLoop cfg (relayAttempt cfg g) as st s).1.1 = false →
        (retryLoop cfg (relayAttempt cfg g) as st s).1.2.used = st.used + as.length) := by
  induction as generalizing st s with
  | nil => exact ⟨le_rfl, Nat.le_add_right _ _, fun _ => rfl⟩
  | cons a rest ih =>
    unfold retryLoop
    split
    · exact ⟨le_rfl, Nat.le_add_right _ _, fun h => by cases h⟩
    · next hretry =>
      have hstep := relayAttempt_step cfg g a s hready (not_lt.mp hretry)
      generalize relayAttempt cfg g a st s = result at hstep ⊢
      obtain ⟨⟨verdict, st'⟩, s'⟩ := result
      obtain ⟨hindex, hused, hagain⟩ := hstep
      cases verdict with
      | done => exact ⟨hindex, hused, fun h => by cases h⟩
      | again =>
        obtain ⟨hone, hready', hbudget⟩ := hagain rfl
        dsimp only at hindex hone hready' hbudget ⊢
        obtain ⟨hindex', hused', hwaiting⟩ := ih hready' s'
        have hsame : LoopState.used { st' with param := st'.param.increaseRetry } = st'.used := rfl
        refine ⟨hindex.trans hindex', hused'.trans (by omega), fun h => ?_⟩
        rw [hwaiting h, length_cons]
        omega

theorem retryLoop_append_index (as bs : List (Attempt NewAPIError)) (hready : st.Ready)
    (s : σ) : (retryLoop cfg (relayAttempt cfg g) as st s).1.2.ctx.groupIndex ≤
      (retryLoop cfg (relayAttempt cfg g) (as ++ bs) st s).1.2.ctx.groupIndex := by
  induction as generalizing st s with
  | nil => exact (retryLoop_spec cfg g bs hready s).1
  | cons a rest ih =>
    rw [cons_append]
    unfold retryLoop
    split
    · exact le_rfl
    · next hretry =>
      have hstep := relayAttempt_step cfg g a s hready (not_lt.mp hretry)
      generalize relayAttempt cfg g a st s = result at hstep ⊢
      obtain ⟨⟨verdict, st'⟩, s'⟩ := result
      cases verdict with
      | done => exact le_rfl
      | again => exact ih (hstep.2.2 rfl).2.1 s'

/-! ## A whole request -/

theorem distribute_index (g : Guards σ) (req : Incoming) (s : σ) {d : Distributed}
    (h : (distribute cfg g req s).1 = some d) :
    req.ctx.groupIndex ≤ d.ctx.groupIndex ∧ d.ctx.userGroup = req.ctx.userGroup := by
  have hrandom : ∀ s, (distributeRandom cfg g req s).1 = some d →
      req.ctx.groupIndex ≤ d.ctx.groupIndex ∧ d.ctx.userGroup = req.ctx.userGroup := by
    intro s hd
    obtain ⟨⟨hctx, -, hindex⟩, -⟩ := select_spec cfg g req.views req.param req.ctx s
    unfold distributeRandom at hd
    dsimp only at hd
    split at hd
    · cases hd
      refine ⟨hindex, ?_⟩
      rw [hctx]
    · cases hd
  unfold distribute distributeSelect at h
  dsimp only at h
  split at h
  · cases h
  · split at h
    · split at h
      · cases h
      · split at h
        · cases h
          exact ⟨le_rfl, rfl⟩
        · split at h
          · exact hrandom s h
          · split at h
            · cases h
              exact ⟨le_rfl, rfl⟩
            · exact hrandom _ h
    · cases h
    · split at h
      · cases h
        exact ⟨le_rfl, rfl⟩
      · cases h

def Config.maxAttempts (cfg : Config) (ctx : Context) (tokenGroup : String) : ℕ :=
  if tokenGroup = "auto" then max 1 (cfg.groupCount ctx) * (cfg.retryTimes.toNat + 1) else cfg.retryTimes.toNat + 1

theorem Distributed.ready (d : Distributed) (req : Incoming) (tokenGroup : String) : (d.loopState req tokenGroup).Ready :=
  ⟨rfl, fun _ => rfl⟩

theorem Distributed.budget_le (d : Distributed) (req : Incoming) (tokenGroup : String) :
    (d.loopState req tokenGroup).budget cfg ≤ cfg.maxAttempts d.ctx tokenGroup := by
  unfold LoopState.budget Config.maxAttempts
  change 1 + (if tokenGroup = "auto" then
    (cfg.groupCount d.ctx - d.ctx.groupIndex) * (cfg.retryTimes.toNat + 1) - 1 else cfg.retryTimes.toNat + 1 - 1) ≤ _
  split
  · have hmore : (cfg.groupCount d.ctx - d.ctx.groupIndex) * (cfg.retryTimes.toNat + 1) ≤
        max 1 (cfg.groupCount d.ctx) * (cfg.retryTimes.toNat + 1) := Nat.mul_le_mul_right _ (by omega)
    have hone : 1 ≤ max 1 (cfg.groupCount d.ctx) * (cfg.retryTimes.toNat + 1) :=
      Nat.mul_pos (by omega) (Nat.succ_pos _)
    omega
  · omega

/-- The course of `Relay`'s loop after `Distribute` has handed a channel on. -/
def Distributed.relay (cfg : Config) (g : Gateway σ) (d : Distributed) (req : Incoming) (tokenGroup : String)
    (attempts : List (Attempt NewAPIError)) (s : σ) : (Bool × LoopState) × σ :=
  retryLoop cfg (relayAttempt cfg g) attempts (d.loopState req tokenGroup) s

/-- The index never goes down, attempts are at most what the groups allow, and left alone the loop ends after that many. -/
theorem relay_bounded (cfg : Config) (g : Gateway σ) (req : Incoming) (tokenGroup : String) (s s' : σ) (d : Distributed)
    (hd : distribute cfg g.toGuards req s = (some d, s')) :
    req.ctx.groupIndex ≤ d.ctx.groupIndex ∧ (∀ as bs, (d.relay cfg g req tokenGroup as s').1.2.ctx.groupIndex ≤
        (d.relay cfg g req tokenGroup (as ++ bs) s').1.2.ctx.groupIndex) ∧
      (∀ as, (d.relay cfg g req tokenGroup as s').1.2.used ≤ d.ctx.useChannel.length + cfg.maxAttempts req.ctx tokenGroup) ∧
      ∀ as, cfg.maxAttempts req.ctx tokenGroup < as.length → (d.relay cfg g req tokenGroup as s').1.1 = true := by
  obtain ⟨hindex, huser⟩ := distribute_index cfg g.toGuards req s (congrArg Prod.fst hd)
  have hready := d.ready req tokenGroup
  have hbudget := d.budget_le cfg req tokenGroup
  have hmax : cfg.maxAttempts d.ctx tokenGroup = cfg.maxAttempts req.ctx tokenGroup := by
    rw [Config.maxAttempts, Config.maxAttempts, Config.groupCount, Config.groupCount, huser]
  have hstart : (d.loopState req tokenGroup).used = d.ctx.useChannel.length := rfl
  refine ⟨hindex, fun as bs => retryLoop_append_index cfg g as bs hready s', fun as => ?_, fun as hlong => ?_⟩
  · obtain ⟨-, hused, -⟩ := retryLoop_spec cfg g as hready s'
    exact hused.trans (by omega)
  · obtain ⟨-, hused, hwaiting⟩ := retryLoop_spec cfg g as hready s'
    cases hfinished : (d.relay cfg g req tokenGroup as s').1.1 with
    | true => rfl
    | false =>
      have hall := hwaiting hfinished
      omega

def crossConfig : Config := { sampleConfig true with autoGroups := ["default", "vip"] }

def crossRequest : Incoming :=
  { sampleRequest [] with usingGroup := "auto", ctx := { (sampleRequest []).ctx with crossGroupRetry := true } }

/-- One retry and an auto token with cross-group retry over two groups: a fifth input finds the loop ended. -/
theorem relay_bounded_two_groups : ∃ d s', distribute crossConfig (sharedGateway sampleLimits).toGuards crossRequest idle =
      (some d, s') ∧ d.channelId = some 1 ∧ crossConfig.maxAttempts crossRequest.ctx "auto" = 4 ∧
    ∀ as : List (Attempt NewAPIError), 4 < as.length →
      (d.relay crossConfig (sharedGateway sampleLimits) crossRequest "auto" as s').1.1 = true :=
  ⟨_, _, rfl, rfl, rfl, (relay_bounded crossConfig (sharedGateway sampleLimits) crossRequest "auto" idle _ _ rfl).2.2.2⟩

end HotAI.Relay
