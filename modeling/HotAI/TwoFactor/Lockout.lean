import HotAI.Lib.Run

/-! # The lock-out of two-factor verifications (`model/twofa.go`, `controller/twofa.go`)

A verification loads the row of the user, compares one code or two with it, first as a TOTP code and then as a backup code, and
saves its copy of the row after each. -/
namespace HotAI.TwoFactor
open HotAI.Lib List

def maxFailAttempts : ℕ := 5

def lockoutDuration : ℤ := 300 * 10 ^ 9

structure TwoFA where
  failedAttempts : ℤ
  lockedUntil : Option ℤ
deriving DecidableEq

def TwoFA.isLocked (t : TwoFA) (now : ℤ) : Bool := match t.lockedUntil with
  | none => false
  | some lockedUntil => now < lockedUntil

def TwoFA.incrementFailedAttempts (t : TwoFA) (now : ℤ) : TwoFA :=
  ⟨t.failedAttempts + 1, if maxFailAttempts ≤ t.failedAttempts + 1 then some (now + lockoutDuration) else t.lockedUntil⟩

def TwoFA.resetFailedAttempts : TwoFA := ⟨0, none⟩

/-- `codes` are those that are still to be compared, each with whether it is right. -/
inductive Verification where
  | waiting (codes : List Bool)
  | comparing (copy : TwoFA) (codes : List Bool)
  | saving (copy : TwoFA) (codes : List Bool)
  | ended
deriving DecidableEq

structure Verifications where
  row : TwoFA
  verifications : List Verification
  clock : ℤ
  /-- When wrong codes were compared since the last right one, the newest first. -/
  wrong : List ℤ

def Verifications.put (s : Verifications) (i : ℕ) (v : Verification) : Verifications :=
  { s with verifications := s.verifications.set i v }

/-- The next step of verification `i`. A copy that is locked skips its code. -/
def advance (s : Verifications) (i : ℕ) (now : ℤ) : Verification → Verifications
  | .waiting codes => s.put i (.comparing s.row codes)
  | .comparing _ [] => s.put i .ended
  | .comparing copy (right :: codes) =>
      if copy.isLocked now then s.put i (.comparing copy codes)
      else if right then { s with wrong := [] }.put i (.saving .resetFailedAttempts [])
      else { s with wrong := now :: s.wrong }.put i (.saving (copy.incrementFailedAttempts now) codes)
  | .saving copy codes => { s with row := copy }.put i (.comparing copy codes)
  | .ended => s

def verify (s : Verifications) (label : ℕ × ℤ) : Verifications :=
  match s.verifications[label.1]? with
  | some v => advance { s with clock := label.2 } label.1 label.2 v
  | none => s

def verified (clock : ℤ) (requests : List (List Bool)) : Verifications :=
  ⟨.resetFailedAttempts, requests.map .waiting, clock, []⟩

/-- How many wrong codes were compared in the `LockoutDuration` that begins at `first`. -/
def Verifications.guesses (s : Verifications) (first : ℤ) : ℕ :=
  s.wrong.countP fun t => first ≤ t ∧ t < first + lockoutDuration

def Verification.idle : Verification → Bool
  | .waiting _ | .ended => true
  | _ => false

def Verifications.Alone (s : Verifications) (i : ℕ) : Prop :=
  ∀ j v, j ≠ i → s.verifications[j]? = some v → v.idle = true

/-- The clock does not go back, and the row is loaded when no other verification is between load and last save. -/
def InTurn (s : Verifications) (label : ℕ × ℤ) : Prop :=
  s.clock ≤ label.2 ∧ ∀ codes, s.verifications[label.1]? = some (.waiting codes) → s.Alone label.1

/-! ## The row and the wrong codes -/

def Spaced : List ℤ → Prop
  | [] => True
  | t :: rest => (maxFailAttempts ≤ rest.length → ∀ u ∈ rest, u + lockoutDuration ≤ t) ∧ Spaced rest

variable {s : Verifications} {wrong : List ℤ} {v : Verification} {copy : TwoFA}

theorem Spaced.count_le (h : Spaced wrong) (first : ℤ) :
    wrong.countP (fun t => first ≤ t ∧ t < first + lockoutDuration) ≤ maxFailAttempts := by
  induction wrong with
  | nil => exact Nat.zero_le _
  | cons t rest ih =>
    by_cases hlong : maxFailAttempts ≤ rest.length
    · rw [countP_cons]
      split
      · next ht =>
        -- the codes before `t` are too old
        have hzero : rest.countP (fun t => first ≤ t ∧ t < first + lockoutDuration) = 0 := by
          rw [countP_eq_zero]
          intro u hu
          have hspace := h.1 hlong u hu
          simp only [decide_eq_true_eq] at ht ⊢
          omega
        rw [hzero]
        decide
      · exact ih h.2
    · have hcount := @countP_le_length _ (fun t => first ≤ t ∧ t < first + lockoutDuration) (t :: rest)
      rw [length_cons] at hcount
      omega

structure Good (clock : ℤ) (copy : TwoFA) (wrong : List ℤ) : Prop where
  count : copy.failedAttempts = wrong.length
  lock : maxFailAttempts ≤ wrong.length →
    ∃ lockedUntil, copy.lockedUntil = some lockedUntil ∧ ∀ t ∈ wrong, t + lockoutDuration ≤ lockedUntil
  past : ∀ t ∈ wrong, t ≤ clock
  spaced : Spaced wrong

theorem good_reset (clock : ℤ) : Good clock .resetFailedAttempts [] where
  count := rfl
  lock h := by cases h
  past t ht := by cases ht
  spaced := trivial

theorem Good.later {clock now : ℤ} (h : Good clock copy wrong) (hnow : clock ≤ now) :
    Good now copy wrong := ⟨h.count, h.lock, fun t ht => (h.past t ht).trans hnow, h.spaced⟩

theorem Good.guess {now : ℤ} (h : Good now copy wrong) (hfree : copy.isLocked now = false) :
    Good now (copy.incrementFailedAttempts now) (now :: wrong) := by
  have hpast : ∀ t ∈ now :: wrong, t ≤ now := by
    intro t ht
    rcases mem_cons.mp ht with rfl | ht
    · exact le_refl t
    · exact h.past t ht
  refine ⟨?_, ?_, hpast, ?_, h.spaced⟩
  · change copy.failedAttempts + 1 = _
    rw [h.count, length_cons, Nat.cast_succ]
  · intro hlong
    refine ⟨now + lockoutDuration, if_pos ?_, ?_⟩
    · rw [h.count]
      rw [length_cons] at hlong
      omega
    · intro t ht
      have := hpast t ht
      omega
  · intro hlong u hu
    obtain ⟨lockedUntil, hlocked, hall⟩ := h.lock hlong
    have hu := hall u hu
    simp only [TwoFA.isLocked, hlocked, decide_eq_false_iff_not] at hfree
    omega

/-! ## One after the other -/

def Verification.copyOr (row : TwoFA) : Verification → TwoFA
  | .comparing copy _ | .saving copy _ => copy
  | _ => row

def Verifications.copyOf (s : Verifications) (i : ℕ) : TwoFA := (s.verifications[i]?.map (·.copyOr s.row)).getD s.row

structure Focus (s : Verifications) (i : ℕ) : Prop where
  alone : s.Alone i
  good : Good s.clock (s.copyOf i) s.wrong
  loaded : ∀ copy codes, s.verifications[i]? = some (.comparing copy codes) → copy = s.row

theorem Focus.put {s : Verifications} {i : ℕ} {v w : Verification} {row : TwoFA} {wrong : List ℤ} (h : Focus s i)
    (hi : s.verifications[i]? = some v) (hgood : Good s.clock (w.copyOr row) wrong)
    (hloaded : ∀ copy codes, w = .comparing copy codes → copy = row) :
    Focus ({ s with row := row, wrong := wrong }.put i w) i := by
  have hself : (s.verifications.set i w)[i]? = some w := List.getElem?_set_self (List.getElem?_eq_some_iff.mp hi).1
  refine ⟨fun j u hj hu => ?_, ?_, fun copy codes hcopy => ?_⟩
  · change (s.verifications.set i w)[j]? = some u at hu
    rw [List.getElem?_set_ne hj.symm] at hu
    exact h.alone j u hj hu
  · unfold Verifications.copyOf Verifications.put
    rw [hself]
    exact hgood
  · exact hloaded copy codes (Option.some.inj (hself.symm.trans hcopy))

theorem Verifications.copyOf_idle {i : ℕ} (h : ∀ v, s.verifications[i]? = some v → v.idle = true) : s.copyOf i = s.row := by
  unfold copyOf
  cases hi : s.verifications[i]? with
  | none => rfl
  | some v =>
    have hidle := h v hi
    cases v with
    | waiting codes => rfl
    | ended => rfl
    | comparing copy codes => cases hidle
    | saving copy codes => cases hidle

theorem Focus.move {i j : ℕ} (h : Focus s i) (hj : s.verifications[j]? = some v)
    (hload : ∀ codes, v = .waiting codes → s.Alone j) : Focus s j ∨ v = .ended := by
  by_cases hij : j = i
  · exact .inl (hij ▸ h)
  have hidle := h.alone j v hij hj
  cases v with
  | ended => exact .inr rfl
  | waiting codes =>
    have halone := hload codes rfl
    refine .inl ⟨halone, ?_, fun copy codes hcopy => ?_⟩
    · have hgood := h.good
      rw [Verifications.copyOf_idle fun w hw => halone i w (Ne.symm hij) hw] at hgood
      rwa [Verifications.copyOf_idle fun w hw => by rw [hj] at hw; cases hw; rfl]
    · rw [hj] at hcopy
      cases hcopy
  | comparing copy codes => cases hidle
  | saving copy codes => cases hidle

theorem Focus.advance {i : ℕ} (h : Focus s i) (hi : s.verifications[i]? = some v) : Focus (advance s i s.clock v) i := by
  have hgood := h.good
  unfold Verifications.copyOf at hgood
  rw [hi] at hgood
  cases v with
  | waiting codes =>
    refine h.put hi hgood fun copy codes hcopy => ?_
    cases hcopy
    rfl
  | comparing copy codes =>
    change Good s.clock copy s.wrong at hgood
    have hcopy := h.loaded copy codes hi
    cases codes with
    | nil => exact @Focus.put s i _ .ended s.row s.wrong h hi (hcopy ▸ hgood) fun copy codes hended => by cases hended
    | cons right codes =>
      change Focus (if copy.isLocked s.clock then _ else _) i
      split
      · refine @Focus.put s i _ (.comparing copy codes) s.row s.wrong h hi hgood fun copy' codes' h' => ?_
        cases h'
        exact hcopy
      · next hfree =>
        split
        · exact h.put hi (good_reset s.clock) fun copy codes hsaving => by cases hsaving
        · exact h.put hi (hgood.guess (by simpa using hfree)) fun copy codes hsaving => by cases hsaving
  | saving copy codes =>
    refine h.put hi hgood fun copy' codes' h' => ?_
    cases h'
    rfl
  | ended => exact h

theorem verify_focus (s : Verifications) (label : ℕ × ℤ) (h : ∃ i, Focus s i) (hturn : InTurn s label) :
    ∃ i, Focus (verify s label) i := by
  obtain ⟨j, now⟩ := label
  obtain ⟨i, hi⟩ := h
  unfold verify
  cases hj : s.verifications[j]? with
  | none => exact ⟨i, hi⟩
  | some v =>
    have hlater : ∀ {k}, Focus s k → Focus { s with clock := now } k :=
      fun hk => ⟨hk.alone, hk.good.later hturn.1, hk.loaded⟩
    rcases hi.move hj (fun codes hv => hturn.2 codes (hv ▸ hj)) with hfocus | rfl
    · exact ⟨j, (hlater hfocus).advance hj⟩
    · exact ⟨i, hlater hi⟩

theorem verified_focus (clock : ℤ) (requests : List (List Bool)) : Focus (verified clock requests) 0 := by
  have hidle : ∀ (i : ℕ) v, (verified clock requests).verifications[i]? = some v → v.idle = true := by
    intro i v hv
    obtain ⟨-, -, rfl⟩ := mem_map.mp (mem_of_getElem? hv)
    rfl
  refine ⟨fun j v _ hv => hidle j v hv, ?_, fun copy codes hcopy => by cases hidle 0 _ hcopy⟩
  rw [Verifications.copyOf_idle (hidle 0)]
  exact good_reset clock

/-- Verifications one after the other, whatever their number, compare at most `maxFailAttempts` wrong codes in any
`LockoutDuration`. -/
theorem lockout_bounds_guesses (clock : ℤ) (requests : List (List Bool)) (labels : List (ℕ × ℤ))
    (h : Along verify InTurn (verified clock requests) labels) (first : ℤ) :
    (run verify (verified clock requests) labels).guesses first ≤ maxFailAttempts := by
  obtain ⟨i, hi⟩ := run_invariant verify_focus ⟨0, verified_focus clock requests⟩ h
  exact hi.good.spaced.count_le first

theorem Verifications.alone_iff (s : Verifications) (i : ℕ) : s.Alone i ↔ ∀ v ∈ s.verifications.eraseIdx i, v.idle = true := by
  simp only [Alone, mem_eraseIdx_iff_getElem?]
  exact ⟨fun h v ⟨j, hj, hv⟩ => h j v hj hv, fun h j v hj hv => h v ⟨j, hj, hv⟩⟩

instance (s : Verifications) (label : ℕ × ℤ) : Decidable (InTurn s label) :=
  decidable_of_iff (s.clock ≤ label.2 ∧ ((s.verifications[label.1]?.any fun | .waiting _ => true | _ => false) →
    ∀ v ∈ s.verifications.eraseIdx label.1, v.idle = true)) <| by
  rw [InTurn, s.alone_iff]
  refine and_congr_right fun _ => ⟨fun h codes hv => h (by rw [hv]; rfl), fun h hany => ?_⟩
  cases hv : s.verifications[label.1]? with
  | none => simp [hv] at hany
  | some v => cases v with
    | waiting codes => exact h codes hv
    | _ => simp [hv] at hany

/-- Six verifications in turn, each with a wrong code: the fifth locks the row, and the sixth compares nothing. -/
def sixInTurn : List (ℕ × ℤ) := (List.range 6).flatMap fun i => List.replicate 4 (i, 60 * i)

theorem lockout_bounds_guesses_in_turn : Along verify InTurn (verified 0 (List.replicate 6 [false])) sixInTurn ∧
      (run verify (verified 0 (List.replicate 6 [false])) sixInTurn).guesses 0 = 5 ∧
      (run verify (verified 0 (List.replicate 6 [false])) sixInTurn).guesses 0 ≤ maxFailAttempts := by
  have h : Along verify InTurn (verified 0 (List.replicate 6 [false])) sixInTurn := by decide +kernel
  exact ⟨h, by decide +kernel, lockout_bounds_guesses 0 _ _ h 0⟩

/-- Six verifications load the row before one of them has saved it. -/
def sixLoads : List (ℕ × ℤ) := ((List.range 6) ++ (List.range 6)).map fun i => (i, 0)

theorem six_loads_six_guesses :
    ¬(run verify (verified 0 (List.replicate 6 [false])) sixLoads).guesses 0 ≤ maxFailAttempts := by
  decide +kernel

end HotAI.TwoFactor
