import HotAI.Routing.Ability
import HotAI.Routing.CacheSync

/-! # How often a draw selects a candidate

The cached draw loop stops below zero, so a candidate owns as many random values as it has weight. The one over the database
stops at zero: the first candidate owns one value more and the last one less. -/
namespace HotAI.Routing
open HotAI.Lib List Database

/-- The weights of the entries with the key `k`. -/
def weightOf {α κ : Type*} [DecidableEq κ] (key : α → κ) (weight : α → ℕ) (k : κ) (entries : List α) : ℕ :=
  ((entries.filter fun e => key e = k).map weight).sum

theorem weightOf_cons {α κ : Type*} [DecidableEq κ] (key : α → κ) (weight : α → ℕ) (k : κ) (e : α) (entries : List α) :
    weightOf key weight k (e :: entries) = (if key e = k then weight e else 0) + weightOf key weight k entries := by
  unfold weightOf
  rw [filter_cons]
  by_cases h : key e = k
  · rw [if_pos (decide_eq_true h), if_pos h, map_cons, sum_cons]
  · rw [if_neg (by simpa using h), if_neg h, zero_add]

theorem count_of_const {p : ℕ → Prop} [DecidablePred p] {q : Prop} [Decidable q] {n : ℕ} (h : ∀ k < n, p k ↔ q) :
    Nat.count p n = if q then n else 0 := by
  split
  · next hq => exact (Nat.count_iff_forall).mpr fun k hk => (h k hk).mpr hq
  · next hq => exact (Nat.count_iff_forall_not).mpr fun k hk hp => hq ((h k hk).mp hp)

/-! ## The cached path -/

section Cached
variable {σ : Type*} {g : Guards σ}

def asInts (weighted : List (Channel × ℕ)) : List (Channel × ℤ) := weighted.map fun entry => (entry.1, (entry.2 : ℤ))

/-- Of the values below the total weight, a channel is drawn by as many as it has weight. -/
def CachedExact (g : Guards σ) (s : σ) (weighted : List (Channel × ℕ)) : Prop :=
  ∀ channel, Nat.count (fun v => (drawChannel g (asInts weighted) v s).1 = some channel) (weighted.map Prod.snd).sum =
    weightOf Prod.fst Prod.snd channel weighted

theorem drawChannel_below (hmark : ∀ id s, (markChannelSelected g id s).1 = true) (first : Channel) (weight : ℕ)
    (rest : List (Channel × ℤ)) {v : ℕ} (hv : v < weight) (s : σ) :
    (drawChannel g ((first, (weight : ℤ)) :: rest) v s).1 = some first := by
  have hhit : (v : ℤ) - weight < 0 := by omega
  unfold drawChannel
  simp only [if_pos hhit, hmark, if_true]

theorem drawChannel_above (first : Channel) (weight : ℕ) (rest : List (Channel × ℤ)) (v : ℕ) (s : σ) :
    drawChannel g ((first, (weight : ℤ)) :: rest) ((weight + v : ℕ) : ℤ) s = drawChannel g rest v s := by
  have hleft : ((weight + v : ℕ) : ℤ) - weight = v := by omega
  have hmiss : ¬((v : ℤ) < 0) := by omega
  rw [drawChannel, hleft, if_neg hmiss]

theorem cachedExact (hmark : ∀ id s, (markChannelSelected g id s).1 = true) (s : σ) (weighted : List (Channel × ℕ)) :
    CachedExact g s weighted := by
  intro channel
  induction weighted with
  | nil => rfl
  | cons entry rest ih =>
    obtain ⟨first, weight⟩ := entry
    have hbelow : ∀ v < weight, (drawChannel g (asInts ((first, weight) :: rest)) v s).1 = some channel ↔ first = channel := by
      intro v hv
      have hfirst := drawChannel_below hmark first weight (asInts rest) hv s
      rw [asInts, map_cons, ← asInts, hfirst, Option.some_inj]
    have habove : ∀ v, (drawChannel g (asInts ((first, weight) :: rest)) ((weight + v : ℕ) : ℤ) s).1 =
        (drawChannel g (asInts rest) v s).1 := by
      intro v
      rw [asInts, map_cons, ← asInts, drawChannel_above]
    rw [map_cons, sum_cons, Nat.count_add, count_of_const hbelow, weightOf_cons]
    simp only [habove]
    rw [ih]

end Cached

/-! ## The database path -/

def Ability.share (ability : Ability) : ℕ := ability.weight + 10

/-- Of the values below the sum, a channel is drawn by as many as it has weight, ten added for each ability. -/
def DatabaseExact (abilities : List Ability) : Prop :=
  ∀ id, Nat.count (fun v => Database.drawAbility abilities v = id) (abilities.map Ability.share).sum =
    weightOf Ability.channelId Ability.share id abilities

theorem drawAbility_upTo (first : Ability) (rest : List Ability) {v : ℕ} (hv : v ≤ first.share) :
    Database.drawAbility (first :: rest) v = first.channelId := by
  have hhit : (v : ℤ) - (first.weight + 10) ≤ 0 := by
    unfold Ability.share at hv
    omega
  rw [drawAbility, if_pos hhit]

theorem drawAbility_above (first : Ability) (rest : List Ability) (v : ℕ) :
    Database.drawAbility (first :: rest) ((first.share + v + 1 : ℕ) : ℤ) = Database.drawAbility rest ((v + 1 : ℕ) : ℤ) := by
  have hleft : ((first.share + v + 1 : ℕ) : ℤ) - (first.weight + 10) = ((v + 1 : ℕ) : ℤ) := by
    unfold Ability.share
    omega
  have hmiss : ¬(((v + 1 : ℕ) : ℤ) ≤ 0) := by omega
  rw [drawAbility, hleft, if_neg hmiss]

theorem count_from_one (abilities : List Ability) (id : ℤ) :
    Nat.count (fun v => Database.drawAbility abilities ((v + 1 : ℕ) : ℤ) = id) (abilities.map Ability.share).sum =
      weightOf Ability.channelId Ability.share id abilities := by
  induction abilities with
  | nil => rfl
  | cons first rest ih =>
    have hbelow : ∀ v < first.share, drawAbility (first :: rest) ((v + 1 : ℕ) : ℤ) = id ↔ first.channelId = id := by
      intro v hv
      rw [drawAbility_upTo first rest hv]
    rw [map_cons, sum_cons, Nat.count_add, count_of_const hbelow, weightOf_cons]
    simp only [drawAbility_above]
    rw [ih]

variable {abilities : List Ability}

theorem drawAbility_sum (h : abilities ≠ []) :
    Database.drawAbility abilities ((abilities.map Ability.share).sum : ℕ) = (abilities.getLast h).channelId := by
  induction abilities with
  | nil => exact absurd rfl h
  | cons first rest ih =>
    cases rest with
    | nil => exact drawAbility_upTo first [] (by simp)
    | cons second rest =>
      have hrest := ih (cons_ne_nil _ _)
      have hpos : 0 < ((second :: rest).map Ability.share).sum := by
        rw [map_cons, sum_cons, Ability.share]
        omega
      obtain ⟨v, hv⟩ := Nat.exists_eq_add_one_of_ne_zero hpos.ne'
      rw [hv] at hrest
      rw [map_cons, sum_cons, hv, ← Nat.add_assoc, drawAbility_above, hrest]
      rfl

theorem count_shifted (h : abilities ≠ []) (id : ℤ) :
    Nat.count (fun v : ℕ => Database.drawAbility abilities v = id) (abilities.map Ability.share).sum +
        (if (abilities.getLast h).channelId = id then 1 else 0) =
      weightOf Ability.channelId Ability.share id abilities + if (abilities.head h).channelId = id then 1 else 0 := by
  have hfirst : drawAbility abilities ((0 : ℕ) : ℤ) = (abilities.head h).channelId := by
    obtain ⟨first, rest, rfl⟩ := exists_cons_of_ne_nil h
    exact drawAbility_upTo first rest (Nat.zero_le _)
  have hup := Nat.count_succ (fun v : ℕ => drawAbility abilities v = id) (abilities.map Ability.share).sum
  have hdown := Nat.count_succ' (fun v : ℕ => drawAbility abilities v = id) (abilities.map Ability.share).sum
  rw [drawAbility_sum h] at hup
  rw [hfirst, count_from_one] at hdown
  omega

theorem databaseExact_iff (h : abilities ≠ []) :
    DatabaseExact abilities ↔ (abilities.head h).channelId = (abilities.getLast h).channelId := by
  constructor
  · intro hexact
    by_contra hne
    have hshifted := count_shifted h (abilities.head h).channelId
    rw [hexact, if_pos rfl, if_neg (Ne.symm hne)] at hshifted
    omega
  · intro heq id
    have hshifted := count_shifted h id
    rw [heq] at hshifted
    omega

/-- Both draws are exact only if the first and the last candidate of the database path are the same channel. -/
theorem draws_exact_iff {σ : Type*} {g : Guards σ} (hmark : ∀ id s, (markChannelSelected g id s).1 = true) (s : σ)
    (weighted : List (Channel × ℕ)) {abilities : List Ability} (hne : abilities ≠ []) :
    CachedExact g s weighted ∧ DatabaseExact abilities ↔
      (abilities.head hne).channelId = (abilities.getLast hne).channelId :=
  (and_iff_right (cachedExact hmark s weighted)).trans (databaseExact_iff hne)

theorem draws_exact_iff_one : CachedExact openGuards ()
      [(⟨1, 1, some 3, none, 0, none, none⟩, 3), (⟨2, 1, some 5, none, 0, none, none⟩, 5)] ∧
    DatabaseExact [⟨"default", "gpt", 1, true, 0, 3⟩] :=
  (draws_exact_iff (fun _ _ => rfl) () _ (cons_ne_nil _ _)).mpr rfl

def evenAbilities : List Ability := [⟨"default", "gpt", 1, true, 0, 0⟩, ⟨"default", "gpt", 2, true, 0, 0⟩]

/-- Two candidates without weight: eleven of the twenty values select the first. -/
theorem evenAbilities_uneven : Nat.count (fun v => Database.drawAbility evenAbilities v = 1) 20 = 11 ∧
    Nat.count (fun v => Database.drawAbility evenAbilities v = 2) 20 = 9 := by
  decide

end HotAI.Routing
