import Mathlib

/-! # Runs of a step function

All nondeterminism of a step function is in the list of labels, so "every run" is "every list"; a label that is not possible
leaves the state as it is. `Along step ok s as` says that every step meets `ok` in the state in which it is taken. -/
namespace HotAI.Lib
open List Function

variable {σ α : Type*}

def run (step : σ → α → σ) (s : σ) (as : List α) : σ := as.foldl step s

variable (step : σ → α → σ)

@[simp] theorem run_nil (s : σ) : run step s [] = s := rfl

@[simp] theorem run_cons (s : σ) (a : α) (as : List α) : run step s (a :: as) = run step (step s a) as := rfl

theorem run_append (s : σ) (as bs : List α) : run step s (as ++ bs) = run step (run step s as) bs := foldl_append

/-- Every step of the run meets `ok` in the state in which it is taken. -/
def Along (step : σ → α → σ) (ok : σ → α → Prop) : σ → List α → Prop
  | _, [] => True
  | s, a :: as => ok s a ∧ Along step ok (step s a) as

instance decidableAlong (step : σ → α → σ) (ok : σ → α → Prop) [∀ s a, Decidable (ok s a)] :
    ∀ (s : σ) (as : List α), Decidable (Along step ok s as)
  | _, [] => .isTrue trivial
  | s, a :: as =>
      @instDecidableAnd (ok s a) (Along step ok (step s a) as) _
        (decidableAlong step ok (step s a) as)

theorem along_append (ok : σ → α → Prop) (s : σ) (as bs : List α) :
    Along step ok s (as ++ bs) ↔ Along step ok s as ∧ Along step ok (run step s as) bs := by
  induction as generalizing s with
  | nil => simp [Along]
  | cons a as ih =>
    simp only [cons_append, Along, run_cons, ih, and_assoc]

/-- A property of the first state that every admissible step keeps holds in the last one. -/
theorem run_invariant {step : σ → α → σ} {ok : σ → α → Prop} {Inv : σ → Prop}
    (keep : ∀ s a, Inv s → ok s a → Inv (step s a)) {s : σ} {as : List α}
    (h : Inv s) (hok : Along step ok s as) : Inv (run step s as) := by
  induction as generalizing s with
  | nil => exact h
  | cons a as ih =>
    obtain ⟨ha, hrest⟩ := hok
    exact ih (keep s a h ha) hrest

/-! ## Fallible steps -/

theorem except_map_ok {ε β γ : Type*} {f : β → γ} {x : Except ε β} {c : γ} (h : x.map f = .ok c) :
    ∃ b, x = .ok b ∧ f b = c := by
  cases x with
  | error e => cases h
  | ok b => exact ⟨b, rfl, Except.ok.inj h⟩

theorem bind_ok {ε β γ : Type} {x : Except ε β} {f : β → Except ε γ} {c : γ} (h : x >>= f = .ok c) :
    ∃ b, x = .ok b ∧ f b = .ok c := by
  cases x with
  | error => cases h
  | ok b => exact ⟨b, rfl, h⟩

theorem foldlM_simulates {ε τ : Type*} {step : σ → α → Except ε σ} {astep : τ → α → τ} {ok : τ → α → Prop}
    {R : σ → τ → Prop} (keep : ∀ s t a, R s t → ok t a → ∃ s', step s a = .ok s' ∧ R s' (astep t a))
    {s : σ} {t : τ} {as : List α} (h : R s t) (hok : Along astep ok t as) :
    ∃ s', as.foldlM step s = .ok s' ∧ R s' (run astep t as) := by
  induction as generalizing s t with
  | nil => exact ⟨s, rfl, h⟩
  | cons a as ih =>
    obtain ⟨ha, hrest⟩ := hok
    obtain ⟨s', hstep, h'⟩ := keep s t a h ha
    rw [foldlM_cons, hstep]
    exact ih h' hrest

theorem foldlM_snoc {ε : Type*} {step : σ → α → Except ε σ} {s t u : σ} {as : List α} {a : α}
    (h : as.foldlM step s = .ok t) (ha : step t a = .ok u) : (as ++ [a]).foldlM step s = .ok u := by
  rw [foldlM_append, h]
  change (foldlM step t [a]) = _
  rw [foldlM_cons, ha]
  rfl

/-! ## Machines side by side

Labels belong to one of several machines that know nothing of each other. Each has its own run, over its own labels. -/

section Parts
variable {ι δ : Type*} [DecidableEq ι] (part : α → Option (ι × δ))

def stepPart (step : ι → σ → δ → σ) (s : ι → σ) (a : α) : ι → σ :=
  match part a with
  | none => s
  | some (i, d) => Function.update s i (step i (s i) d)

def partOf (i : ι) (a : α) : Option δ := (part a).bind fun x => if x.1 = i then some x.2 else none

theorem run_stepPart (step : ι → σ → δ → σ) (s : ι → σ) (as : List α) (i : ι) :
    run (stepPart part step) s as i = run (step i) (s i) (as.filterMap (partOf part i)) := by
  induction as generalizing s with
  | nil => rfl
  | cons a as ih =>
    rw [run_cons, ih, filterMap_cons]
    unfold stepPart partOf
    cases part a with
    | none => rfl
    | some x =>
      obtain ⟨j, -⟩ := x
      by_cases hj : j = i
      · subst hj
        simp
      · simp [hj, update_of_ne (Ne.symm hj)]

def okPart (ok : ι → σ → δ → Prop) (s : ι → σ) (a : α) : Prop := ∀ x ∈ part a, ok x.1 (s x.1) x.2

theorem along_stepPart {step : ι → σ → δ → σ} {ok : ι → σ → δ → Prop} {s : ι → σ} {as : List α}
    (h : ∀ i, Along (step i) (ok i) (s i) (as.filterMap (partOf part i))) :
    Along (stepPart part step) (okPart part ok) s as := by
  induction as generalizing s with
  | nil => trivial
  | cons a as ih =>
    constructor
    · rintro ⟨i, d⟩ hx
      have hi := h i
      rw [filterMap_cons_some (b := d) (by simp [partOf, Option.mem_def.mp hx])] at hi
      exact hi.1
    · refine ih fun i => ?_
      have hi := h i
      rw [filterMap_cons] at hi
      unfold stepPart
      cases hpart : part a with
      | none => simpa [partOf, hpart] using hi
      | some x =>
        obtain ⟨j, d⟩ := x
        by_cases hj : j = i
        · subst hj
          simp only [partOf, hpart, Option.bind_some, if_true] at hi
          simpa using hi.2
        · simp only [partOf, hpart, Option.bind_some, hj, if_false] at hi
          change Along (step i) (ok i) (update s j (step j (s j) d) i) _
          rw [update_of_ne (Ne.symm hj)]
          exact hi

end Parts

end HotAI.Lib
