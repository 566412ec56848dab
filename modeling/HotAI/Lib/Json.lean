import HotAI.Lib.GoStrings

/-! # JSON values

What `encoding/json` decodes into an `interface{}`: objects are lists of members in the order in which a `range` visits them.
`weight` bounds the text of a value. -/
namespace HotAI.Lib

/-! ## Maps -/

namespace Assoc
variable {ν : Type*}

def get (m : List (String × ν)) (key : String) : Option ν := m.lookup key

/-- `m[key] = value`. -/
def set (m : List (String × ν)) (key : String) (value : ν) : List (String × ν) :=
  match m with
  | [] => [(key, value)]
  | (k, v) :: rest => if k = key then (key, value) :: rest else (k, v) :: set rest key value

/-- `delete(m, key)`. -/
def erase (m : List (String × ν)) (key : String) : List (String × ν) := m.filter (·.1 ≠ key)

theorem get_set (m : List (String × ν)) (key : String) (value : ν) (k : String) :
    get (set m key value) k = if k = key then some value else get m k := by
  induction m with
  | nil =>
    by_cases hk : k = key <;> simp [get, set, hk]
  | cons pair rest ih =>
    obtain ⟨k', -⟩ := pair
    unfold get at ih ⊢
    by_cases hk' : k' = key
    · subst hk'
      simp only [set, if_true, List.lookup_cons]
      by_cases hk : k = k'
      · simp [hk]
      · simp [hk, beq_eq_false_iff_ne.mpr hk]
    · simp only [set, if_neg hk', List.lookup_cons, ih]
      by_cases hk : k = k'
      · simp [hk, hk']
      · simp [beq_eq_false_iff_ne.mpr hk]

end Assoc

/-! ## Values -/

inductive Json where
  | null
  | bool (b : Bool)
  | num (n : ℚ)
  | str (s : String)
  | arr (items : List Json)
  | obj (fields : List (String × Json))

abbrev Fields := List (String × Json)

namespace Json

def asString : Json → Option String
  | .str s => some s
  | _ => none

def asBool : Json → Option Bool
  | .bool b => some b
  | _ => none

def asObject : Json → Option Fields
  | .obj fields => some fields
  | _ => none

/-! The text that `fmt` gives a value for `%v`, where `formatFloat` writes the numbers. -/

mutual

def sprint (formatFloat : ℚ → String) : Json → String
  | .null => "<nil>"
  | .bool b => if b then "true" else "false"
  | .num n => formatFloat n
  | .str s => s
  | .arr items => "[" ++ " ".intercalate (sprintItems formatFloat items) ++ "]"
  | .obj fields =>
      let pairs := (sprintFields formatFloat fields).insertionSort fun a b => a.1 ≤ b.1
      "map[" ++ " ".intercalate (pairs.map fun pair => pair.1 ++ ":" ++ pair.2) ++ "]"

def sprintItems (formatFloat : ℚ → String) : List Json → List String
  | [] => []
  | item :: rest => sprint formatFloat item :: sprintItems formatFloat rest

def sprintFields (formatFloat : ℚ → String) : List (String × Json) → List (String × String)
  | [] => []
  | (key, value) :: rest => (key, sprint formatFloat value) :: sprintFields formatFloat rest

end

mutual

def weight : Json → ℕ
  | .str s => s.length + 1
  | .arr items => itemsWeight items + 1
  | .obj fields => fieldsWeight fields + 1
  | _ => 1

def itemsWeight : List Json → ℕ
  | [] => 0
  | item :: rest => weight item + itemsWeight rest

def fieldsWeight : List (String × Json) → ℕ
  | [] => 0
  | (_, value) :: rest => weight value + fieldsWeight rest

end

theorem weight_le_fieldsWeight {fields : Fields} {key : String} {value : Json}
    (h : Assoc.get fields key = some value) : value.weight ≤ fieldsWeight fields := by
  induction fields with
  | nil => cases h
  | cons pair rest ih =>
    unfold fieldsWeight
    unfold Assoc.get at h ih
    rw [List.lookup_cons] at h
    split at h
    · cases h
      omega
    · have := ih h
      omega

end Json

end HotAI.Lib
