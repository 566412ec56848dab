import HotAI.Lib.GoStrings
import HotAI.Lib.Table
import HotAI.Lib.Threads

/-! # Backup codes (`ValidateBackupCode` in `model/twofa.go`)

A call reads the unused codes of the user and writes the first that matches its own back as used, with the statements of
other calls in between. -/
namespace HotAI.TwoFactor
open HotAI.Lib List

structure BackupCode where
  id : ℤ
  codeHash : String
  isUsed : Bool
deriving DecidableEq

/-- The functions of the libraries: `strings.ToUpper`, and the comparison of bcrypt. -/
structure Checks where
  toUpper : String → String
  validatePasswordAndHash : String → String → Bool

variable (checks : Checks)

def backupCodeLength : ℕ := 8

def Checks.cleanCode (code : String) : String := checks.toUpper (replaceAll code "-" "")

/-- `common.ValidateBackupCode`. -/
def Checks.validFormat (code : String) : Bool :=
  (checks.cleanCode code).utf8ByteSize = backupCodeLength ∧
    (checks.cleanCode code).toList.all fun char => ('A' ≤ char ∧ char ≤ 'Z') ∨ ('0' ≤ char ∧ char ≤ '9')

def Checks.normalizeBackupCode (code : String) : String :=
  if (checks.cleanCode code).utf8ByteSize = backupCodeLength then
    String.ofList ((checks.cleanCode code).toList.take 4) ++ "-" ++ String.ofList ((checks.cleanCode code).toList.drop 4)
  else code

def Checks.fits (code : String) (bc : BackupCode) : Bool :=
  checks.validatePasswordAndHash (checks.normalizeBackupCode code) bc.codeHash

inductive Call where
  | submitted (code : String)
  /-- The code `bc` fits and is about to be saved. -/
  | found (bc : BackupCode)
  | accepted (id : ℤ)
  | refused
deriving DecidableEq

structure Calls where
  codes : Table BackupCode BackupCode.id
  calls : List Call

/-- The read of `ValidateBackupCode` and the comparisons. -/
def Checks.find (codes : Table BackupCode BackupCode.id) (code : String) : Call :=
  if checks.validFormat code then
    match (codes.rows.filter (!·.isUsed)).find? (checks.fits code) with
    | some bc => .found bc
    | none => .refused
  else .refused

/-- The next statement of call `i`; the database may fail to save. -/
def step (s : Calls) (label : ℕ × Bool) : Calls := match s.calls[label.1]? with
  | some (.submitted code) => { s with calls := s.calls.set label.1 (checks.find s.codes code) }
  | some (.found bc) =>
      if label.2 then ⟨s.codes.put { bc with isUsed := true }, s.calls.set label.1 (.accepted bc.id)⟩
      else { s with calls := s.calls.set label.1 .refused }
  | _ => s

def start (codes : Table BackupCode BackupCode.id) (submitted : List String) : Calls := ⟨codes, submitted.map .submitted⟩

def Calls.acceptances (s : Calls) (id : ℤ) : ℤ := total (fun call => if call = .accepted id then 1 else 0) s.calls

/-- The code of a call that reads is not one that another call has found and not saved yet. -/
def Apart (s : Calls) (label : ℕ × Bool) : Prop := ∀ code, s.calls[label.1]? = some (.submitted code) →
  ∀ bc, .found bc ∈ s.calls → ∀ row ∈ s.codes.rows, row.id = bc.id → checks.fits code row = false

/-! ## Every code at most once -/

def Call.holds (id : ℤ) : Call → ℤ
  | .found bc => if bc.id = id then 1 else 0
  | .accepted taken => if taken = id then 1 else 0
  | _ => 0

theorem Call.holds_nonneg (id : ℤ) (call : Call) : 0 ≤ call.holds id := by
  unfold holds
  split
  · split <;> omega
  · split <;> omega
  · omega

structure Inv (s : Calls) : Prop where
  used : ∀ id, .accepted id ∈ s.calls → ∀ row ∈ s.codes.rows, row.id = id → row.isUsed = true
  once : ∀ id, total (Call.holds id) s.calls ≤ 1

variable {checks} (codes : Table BackupCode BackupCode.id)

theorem find_cases (code : String) : checks.find codes code = .refused ∨
      ∃ bc ∈ codes.rows, bc.isUsed = false ∧ checks.fits code bc = true ∧ checks.find codes code = .found bc := by
  unfold Checks.find
  split
  · cases hfind : (codes.rows.filter (!·.isUsed)).find? (checks.fits code) with
    | none => exact .inl rfl
    | some bc =>
      have hmem := mem_filter.mp (mem_of_find?_eq_some hfind)
      exact .inr ⟨bc, hmem.1, by simpa using hmem.2, find?_some hfind, rfl⟩
  · exact .inl rfl

variable {s : Calls} {i : ℕ}

theorem Inv.refuse (h : Inv s) {call : Call} (hi : s.calls[i]? = some call) :
    Inv { s with calls := s.calls.set i .refused } := by
  constructor
  · intro id hid
    rcases mem_or_eq_of_mem_set hid with hid | hid
    · exact h.used id hid
    · cases hid
  · intro id
    have honce := h.once id
    have hnonneg := call.holds_nonneg id
    rw [total_set (Call.holds id) s.calls i call .refused hi]
    change total (Call.holds id) s.calls - call.holds id + 0 ≤ 1
    omega

theorem Inv.read (h : Inv s) {saved : Bool} {code : String} (hi : s.calls[i]? = some (.submitted code))
    (hapart : Apart checks s (i, saved)) : Inv { s with calls := s.calls.set i (checks.find s.codes code) } := by
  rcases find_cases s.codes code with hnone | ⟨bc, hbc, hunused, hfits, hsome⟩
  · rw [hnone]
    exact h.refuse hi
  rw [hsome]
  constructor
  · intro id hid
    rcases mem_or_eq_of_mem_set hid with hid | hid
    · exact h.used id hid
    · cases hid
  · intro id
    rw [total_set (Call.holds id) s.calls i _ (.found bc) hi]
    change total (Call.holds id) s.calls - 0 + (if bc.id = id then 1 else 0) ≤ 1
    split
    · next hid =>
      -- nobody has found the code or taken it
      have hzero : total (Call.holds id) s.calls = 0 := by
        apply total_eq_zero
        intro call hcall
        cases call with
        | found bc' =>
          refine if_neg fun hid' => ?_
          rw [hapart code hi bc' hcall bc hbc (hid.trans hid'.symm)] at hfits
          cases hfits
        | accepted taken =>
          refine if_neg fun hid' => ?_
          rw [h.used taken hcall bc hbc (hid.trans hid'.symm)] at hunused
          cases hunused
        | submitted code => rfl
        | refused => rfl
      omega
    · have honce := h.once id
      omega

theorem Inv.save (h : Inv s) {bc : BackupCode} (hi : s.calls[i]? = some (.found bc)) :
    Inv ⟨s.codes.put { bc with isUsed := true }, s.calls.set i (.accepted bc.id)⟩ := by
  constructor
  · intro id hid row hrow hrowid
    obtain ⟨old, hold, rfl⟩ := mem_map.mp hrow
    split
    · rfl
    · next hne =>
      rw [if_neg hne] at hrowid
      rcases mem_or_eq_of_mem_set hid with hid | hid
      · exact h.used id hid old hold hrowid
      · cases hid
        exact absurd hrowid hne
  · intro id
    have honce := h.once id
    rw [total_set (Call.holds id) s.calls i _ (.accepted bc.id) hi]
    change total (Call.holds id) s.calls - (if bc.id = id then 1 else 0) + (if bc.id = id then 1 else 0) ≤ 1
    omega

theorem step_inv (s : Calls) (label : ℕ × Bool) (h : Inv s) (hapart : Apart checks s label) : Inv (step checks s label) := by
  unfold step
  split
  · next code hi => exact h.read hi hapart
  · next bc hi =>
    split
    · exact h.save hi
    · exact h.refuse hi
  · exact h

theorem start_inv (submitted : List String) : Inv (start codes submitted) := by
  constructor
  · intro id hid
    obtain ⟨code, -, hcode⟩ := mem_map.mp hid
    cases hcode
  · intro id
    have hzero : total (Call.holds id) (start codes submitted).calls = 0 := by
      apply total_eq_zero
      intro call hcall
      obtain ⟨-, -, rfl⟩ := mem_map.mp hcall
      rfl
    omega

theorem Inv.acceptances_le (h : Inv s) (id : ℤ) : s.acceptances id ≤ 1 := by
  refine le_trans ?_ (h.once id)
  apply sum_le_sum
  intro call _
  split
  · next hcall =>
    rw [hcall]
    exact (if_pos rfl).ge
  · exact call.holds_nonneg id

/-- A backup code is accepted at most once if no call reads it between another's read and save. -/
theorem backup_code_works_once (codes : Table BackupCode BackupCode.id) (submitted : List String) (labels : List (ℕ × Bool))
    (h : Along (step checks) (Apart checks) (start codes submitted) labels) (id : ℤ) :
    (run (step checks) (start codes submitted) labels).acceptances id ≤ 1 :=
  (run_invariant step_inv (start_inv codes submitted) h).acceptances_le id

/-- Hashes that show their code. -/
def plainChecks : Checks := ⟨toUpper, fun code hash => hash = "#" ++ code⟩

def oneCode : Table BackupCode BackupCode.id := ⟨[⟨1, "#ABCD-1234", false⟩], by decide⟩

def inTurn : List (ℕ × Bool) := [(0, true), (0, true), (1, true)]

theorem backup_code_works_once_in_turn :
    Along (step plainChecks) (Apart plainChecks) (start oneCode ["abcd-1234", "ABCD1234"]) inTurn ∧
      (run (step plainChecks) (start oneCode ["abcd-1234", "ABCD1234"]) inTurn).acceptances 1 ≤ 1 := by
  have hfound : (step plainChecks (start oneCode ["abcd-1234", "ABCD1234"]) (0, true)).calls =
      [.found ⟨1, "#ABCD-1234", false⟩, .submitted "ABCD1234"] := by decide +kernel
  have htaken : (step plainChecks (step plainChecks (start oneCode ["abcd-1234", "ABCD1234"]) (0, true)) (0, true)).calls =
      [.accepted 1, .submitted "ABCD1234"] := by decide +kernel
  have h : Along (step plainChecks) (Apart plainChecks) (start oneCode ["abcd-1234", "ABCD1234"]) inTurn := by
    refine ⟨fun code _ bc hbc => ?_, fun code hcode => ?_, fun code _ bc hbc => ?_, trivial⟩
    · simp [start] at hbc
    · rw [hfound] at hcode
      simp at hcode
    · rw [htaken] at hbc
      simp at hbc
  exact ⟨h, backup_code_works_once oneCode _ _ h 1⟩

/-- Both calls read before one of them saves. -/
theorem backup_code_works_twice : ¬(run (step plainChecks) (start oneCode ["abcd-1234", "ABCD1234"])
      [(0, true), (1, true), (0, true), (1, true)]).acceptances 1 ≤ 1 := by
  decide +kernel

/-! ## Used codes -/

theorem used_step {id : ℤ} (h : ∀ row ∈ s.codes.rows, row.id = id → row.isUsed = true) (label : ℕ × Bool) :
    (∀ row ∈ (step checks s label).codes.rows, row.id = id → row.isUsed = true) ∧
      total (Call.holds id) (step checks s label).calls ≤ total (Call.holds id) s.calls := by
  unfold step
  split
  · next code hi =>
    refine ⟨h, (total_set _ _ _ _ _ hi).trans_le ?_⟩
    rcases @find_cases checks s.codes code with hnone | ⟨bc, hbc, hunused, -, hsome⟩
    · simp [hnone, Call.holds]
    · have hid : bc.id ≠ id := fun hid => by simp [h bc hbc hid] at hunused
      simp [hsome, Call.holds, hid]
  · next bc hi =>
    split
    · refine ⟨fun row hrow hid => ?_, by simp [total_set _ _ _ _ _ hi, Call.holds]⟩
      obtain ⟨old, hold, rfl⟩ := mem_map.mp hrow
      grind
    · have hnonneg := (Call.found bc).holds_nonneg id
      exact ⟨h, (total_set _ _ _ _ _ hi).trans_le (by simpa [Call.holds] using hnonneg)⟩
  · exact ⟨h, le_rfl⟩

/-- Once a code is used, the calls that have found it or were accepted with it do not become more. -/
theorem used_code_not_found_again {id : ℤ} (h : ∀ row ∈ s.codes.rows, row.id = id → row.isUsed = true)
    (labels : List (ℕ × Bool)) : total (Call.holds id) (run (step checks) s labels).calls ≤ total (Call.holds id) s.calls := by
  induction labels generalizing s with
  | nil => exact le_rfl
  | cons label labels ih =>
    obtain ⟨hused, hle⟩ := @used_step checks s id h label
    exact (ih hused).trans hle

theorem used_code_not_found_twice : total (Call.holds 1) (run (step plainChecks)
    ⟨⟨[⟨1, "#ABCD-1234", true⟩], by decide⟩, [.accepted 1, .submitted "ABCD1234"]⟩ [(1, true), (1, true)]).calls ≤ 1 :=
  used_code_not_found_again (by simp) _

end HotAI.TwoFactor
