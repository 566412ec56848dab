import HotAI.Lib.Run

/-! # Sums over the threads of a system

What the callers of an interleaving hold together is a sum of weights over the list of their states, which a move changes by
the difference of the mover's weights. -/
namespace HotAI.Lib
open List

variable {τ : Type*}

def total (w : τ → ℤ) (ts : List τ) : ℤ := (ts.map w).sum

@[simp] theorem total_nil (w : τ → ℤ) : total w [] = 0 := rfl

@[simp] theorem total_cons (w : τ → ℤ) (t : τ) (ts : List τ) : total w (t :: ts) = w t + total w ts := by
  simp [total]

theorem total_append (w : τ → ℤ) (ts us : List τ) : total w (ts ++ us) = total w ts + total w us := by
  simp [total]

theorem total_map {ι : Type*} (w : τ → ℤ) (f : ι → τ) (is : List ι) : total w (is.map f) = total (fun i => w (f i)) is := by
  simp [total, Function.comp_def]

section
variable (w : τ → ℤ) (ts : List τ)

theorem total_set (i : ℕ) (t t' : τ) (h : ts[i]? = some t) : total w (ts.set i t') = total w ts - w t + w t' := by
  induction ts generalizing i with
  | nil => simp at h
  | cons u ts ih =>
    cases i with
    | zero =>
      have hu : u = t := by simpa using h
      subst hu
      simp only [set_cons_zero, total_cons]
      omega
    | succ i =>
      have hi := ih i (by simpa using h)
      simp only [set_cons_succ, total_cons, hi]
      omega

theorem total_eraseIdx (i : ℕ) (t : τ) (h : ts[i]? = some t) : total w ts = w t + total w (ts.eraseIdx i) := by
  induction ts generalizing i with
  | nil => simp at h
  | cons u ts ih =>
    cases i with
    | zero =>
      have hu : u = t := by simpa using h
      simp [hu]
    | succ i =>
      have hi := ih i (by simpa using h)
      simp only [eraseIdx_cons_succ, total_cons, hi]
      omega

theorem total_nonneg (h : ∀ t ∈ ts, 0 ≤ w t) : 0 ≤ total w ts :=
  sum_nonneg (forall_mem_map.mpr h)

theorem total_eq_zero (h : ∀ t ∈ ts, w t = 0) : total w ts = 0 :=
  sum_eq_zero (forall_mem_map.mpr h)

theorem weight_le_total (t : τ) (ht : t ∈ ts) (h : ∀ u ∈ ts, 0 ≤ w u) : w t ≤ total w ts :=
  single_le_sum (forall_mem_map.mpr h) _ (mem_map_of_mem ht)

end

end HotAI.Lib
