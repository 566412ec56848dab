import Mathlib

/-! # Counting in a ring of buckets that is overwritten lazily

Samples carry bucket numbers that do not decrease, and a ring of `n` slots keeps the newest of each remainder. Counting the
slots whose bucket is live gives the samples of the last `n` buckets. -/
namespace HotAI.Lib.BucketRing
open List

variable {α : Type*} (n : ℕ) (num : α → ℤ)

def slot (x : α) : ℕ := (num x % (n : ℤ)).toNat

/-- The bucket number that slot `k` holds. -/
def held (samples : List α) (k : ℕ) : Option ℤ := (samples.filter fun x => slot n num x = k).getLast?.map num

variable {n num} {samples : List α}

theorem held_append (x : α) (k : ℕ) :
    held n num (samples ++ [x]) k = if slot n num x = k then some (num x) else held n num samples k := by
  unfold held
  rw [filter_append, filter_singleton]
  split
  · next h =>
    rw [decide_eq_true h, cond_true, getLast?_append_of_ne_nil _ (cons_ne_nil _ _)]
    rfl
  · next h => rw [decide_eq_false h, cond_false, append_nil]

theorem mem_of_held {k : ℕ} {q : ℤ} (h : held n num samples k = some q) : ∃ x ∈ samples, num x = q ∧ slot n num x = k := by
  obtain ⟨x, hx, rfl⟩ := Option.map_eq_some_iff.mp h
  obtain ⟨hmem, hslot⟩ := mem_filter.mp (mem_of_getLast? hx)
  exact ⟨x, hmem, rfl, of_decide_eq_true hslot⟩

theorem le_held (hsorted : samples.Pairwise fun a b => num a ≤ num b) {x : α} (hx : x ∈ samples) :
    ∃ q, held n num samples (slot n num x) = some q ∧ num x ≤ q := by
  induction samples using reverseRecOn with
  | nil => cases hx
  | append_singleton samples y ih =>
    obtain ⟨hbefore, -, hlast⟩ := pairwise_append.mp hsorted
    rw [held_append]
    rcases mem_append.mp hx with hx | hx
    · split
      · exact ⟨num y, rfl, hlast x hx y mem_cons_self⟩
      · exact ih hbefore hx
    · rw [mem_singleton.mp hx, if_pos rfl]
      exact ⟨num y, rfl, le_rfl⟩

theorem num_eq_of_slot (hn : 0 < n) {x y : α} {cur : ℤ} (hslot : slot n num x = slot n num y) (hx : cur - n < num x) (hx' : num x ≤ cur)
    (hy : cur - n < num y) (hy' : num y ≤ cur) : num x = num y := by
  have hmod : num x % (n : ℤ) = num y % (n : ℤ) := by
    have hx := Int.emod_nonneg (num x) (by omega : (n : ℤ) ≠ 0)
    have hy := Int.emod_nonneg (num y) (by omega : (n : ℤ) ≠ 0)
    unfold slot at hslot
    omega
  have hdvd : (n : ℤ) ∣ num y - num x := Int.ModEq.dvd hmod
  have hzero := Int.eq_zero_of_abs_lt_dvd hdvd (abs_lt.mpr ⟨by omega, by omega⟩)
  omega

/-! ## Sums over the slots -/

theorem sum_filter_map {β : Type*} (l : List β) (p : β → Bool) (f : β → ℤ) :
    ((l.filter p).map f).sum = (l.map fun x => if p x then f x else 0).sum := by
  induction l with
  | nil => rfl
  | cons x l ih =>
    rw [filter_cons, map_cons, sum_cons, ← ih]
    split
    · rw [map_cons, sum_cons]
    · rw [zero_add]

theorem sum_range_single {m k : ℕ} (hk : k < m) (a : ℤ) : ((List.range m).map fun j => if k = j then a else 0).sum = a := by
  induction m with
  | zero => cases hk
  | succ m ih =>
    rw [range_succ, map_append, sum_append, map_singleton, sum_singleton]
    by_cases heq : k = m
    · have hzero : ((range m).map fun j => if k = j then a else 0).sum = 0 := by
        refine sum_eq_zero fun y hy => ?_
        obtain ⟨j, hj, rfl⟩ := mem_map.mp hy
        have := mem_range.mp hj
        omega
      rw [hzero, if_pos heq, zero_add]
    · rw [ih (by omega), if_neg heq, add_zero]

theorem sum_slots (hn : 0 < n) (p : α → Bool) (samples : List α) :
    ((List.range n).map fun k => (samples.countP (fun x => slot n num x = k && p x) : ℤ)).sum = samples.countP p := by
  induction samples with
  | nil =>
    refine sum_eq_zero fun y hy => ?_
    obtain ⟨-, -, rfl⟩ := mem_map.mp hy
    rfl
  | cons x samples ih =>
    have hslot : slot n num x < n := by
      have hlt := Int.emod_lt_of_pos (num x) (by omega : (0 : ℤ) < n)
      unfold slot
      omega
    have hsplit : ∀ k, ((x :: samples).countP (fun y => slot n num y = k && p y) : ℤ) =
        (samples.countP (fun y => slot n num y = k && p y) : ℤ) + if slot n num x = k then (if p x then 1 else 0) else 0 := by
      intro k
      rw [countP_cons]
      by_cases hk : slot n num x = k <;> cases p x <;> simp [hk]
    simp only [hsplit]
    rw [sum_map_add, ih, sum_range_single hslot, countP_cons]
    cases p x <;> simp

def liveCount (n : ℕ) (num : α → ℤ) (live : ℤ → Bool) (p : α → Bool) (samples : List α) : ℤ :=
  ((List.range n).map fun k => match held n num samples k with
    | none => 0
    | some q => if live q then (samples.countP (fun x => num x = q && p x) : ℤ) else 0).sum

theorem liveCount_eq_zero {live : ℤ → Bool} (h : ∀ x ∈ samples, live (num x) = false) (p : α → Bool) :
    liveCount n num live p samples = 0 := by
  refine sum_eq_zero fun y hy => ?_
  obtain ⟨k, -, rfl⟩ := mem_map.mp hy
  cases hheld : held n num samples k with
  | none => rfl
  | some q =>
    obtain ⟨x, hx, rfl, -⟩ := mem_of_held hheld
    dsimp only
    rw [h x hx, if_neg Bool.false_ne_true]

/-- If exactly the last `n` buckets are live, a slot that shares the newest one's remainder aside, the slots count their
samples. -/
theorem liveCount_eq (hn : 0 < n) (hsorted : samples.Pairwise fun a b => num a ≤ num b) {newest : α} (hnewest : newest ∈ samples)
    (hle : ∀ x ∈ samples, num x ≤ num newest) {live : ℤ → Bool}
    (hin : ∀ x ∈ samples, num newest - n < num x → live (num x) = true)
    (hout : ∀ x ∈ samples, num x < num newest - n → live (num x) = false) (p : α → Bool) :
    liveCount n num live p samples = samples.countP fun x => num newest - n < num x && p x := by
  unfold liveCount
  rw [← sum_slots hn]
  congr 1
  refine map_congr_left fun k _ => ?_
  cases hheld : held n num samples k with
  | none =>
    symm
    rw [Nat.cast_eq_zero, countP_eq_zero]
    intro x hx hcounted
    obtain ⟨hslot, -⟩ := Bool.and_eq_true_iff.mp hcounted
    obtain ⟨q, hq, -⟩ := le_held hsorted hx
    rw [of_decide_eq_true hslot, hheld] at hq
    cases hq
  | some q =>
    obtain ⟨y, hy, rfl, hslot⟩ := mem_of_held hheld
    dsimp only
    by_cases hrecent : num newest - n < num y
    · rw [hin y hy hrecent, if_pos rfl]
      congr 1
      refine countP_congr fun x hx => ?_
      simp only [Bool.and_eq_true, decide_eq_true_eq]
      constructor
      · rintro ⟨heq, hp⟩
        refine ⟨?_, by omega, hp⟩
        rw [← hslot, slot, slot, heq]
      · rintro ⟨hsame, hwindow, hp⟩
        exact ⟨num_eq_of_slot hn (hsame.trans hslot.symm) hwindow (hle x hx) hrecent (hle y hy), hp⟩
    · -- the slot of the newest bucket holds that bucket, so this one is older by more than `n`
      have holder : num y < num newest - n := by
        refine lt_of_le_of_ne (not_lt.mp hrecent) fun heq => ?_
        have hsame : slot n num newest = k := by
          rw [← hslot, slot, slot, heq, Int.sub_emod_right]
        obtain ⟨q, hq, hnew⟩ := le_held hsorted hnewest
        rw [hsame, hheld] at hq
        cases hq
        omega
      rw [hout y hy holder, if_neg Bool.false_ne_true]
      symm
      rw [Nat.cast_eq_zero, countP_eq_zero]
      intro x hx hcounted
      simp only [Bool.and_eq_true, decide_eq_true_eq] at hcounted
      obtain ⟨q, hq, hxq⟩ := le_held hsorted hx
      rw [hcounted.1, hheld] at hq
      cases hq
      omega

end HotAI.Lib.BucketRing
