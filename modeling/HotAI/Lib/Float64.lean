import HotAI.Lib.Json
import Mathlib.Data.Int.Log
import Mathlib.Data.Rat.Floor

/-! # Numbers of a JSON text as Go reads and writes them

`encoding/json` decodes every number into a `float64` and writes one with as few digits as are read back as the same
`float64`. A number too large for one is an error that is put off to the end: its place stays `nil`. -/
namespace HotAI.Lib

def roundEven (q : ℚ) : ℤ :=
  let floor := ⌊q⌋
  if q - floor < 1 / 2 then floor
  else if 1 / 2 < q - floor then floor + 1
  else if floor % 2 = 0 then floor
  else floor + 1

/-- `strconv.ParseFloat` of a number text with value `q`. -/
def float64 (q : ℚ) : Option ℚ :=
  let ulp : ℚ := 2 ^ max (Int.log 2 |q| - 52) (-1074)
  let value := roundEven (q / ulp) * ulp
  if |value| < 2 ^ (1024 : ℕ) then some value else none

/-- A decimal of `digits` significant digits that is read as `value`: the nearest one if it is, else its neighbour. -/
def decimalOf (value : ℚ) (digits : ℕ) : Option ℚ :=
  let unit : ℚ := 10 ^ (Int.log 10 |value| + 1 - digits)
  let scaled := value / unit
  [roundEven scaled * unit, ⌊scaled⌋ * unit, ⌈scaled⌉ * unit].find? (float64 · = some value)

/-- `strconv.AppendFloat` with precision -1; 17 digits always do. -/
def shortest (value : ℚ) : ℚ := ((List.range' 1 17).findSome? (decimalOf value)).getD value

namespace Json

mutual

/-- The value of the text that `json.Marshal` writes for what `json.Unmarshal` left in an `interface{}`. -/
def decoded : Json → Json
  | .num n => match float64 n with
      | some value => .num (shortest value)
      | none => .null
  | .arr items => .arr (decodedItems items)
  | .obj fields => .obj (decodedFields fields)
  | .null => .null
  | .bool b => .bool b
  | .str s => .str s

def decodedItems : List Json → List Json
  | [] => []
  | item :: rest => decoded item :: decodedItems rest

def decodedFields : List (String × Json) → List (String × Json)
  | [] => []
  | (key, value) :: rest => (key, decoded value) :: decodedFields rest

end

theorem decoded_num {n value : ℚ} (h : float64 n = some value) : decoded (.num n) = .num (shortest value) := by
  unfold decoded
  rw [h]

mutual

/-- Every number is the shortest decimal of its `float64`. -/
def Exact : Json → Prop
  | .num n => (float64 n).map shortest = some n
  | .arr items => ExactItems items
  | .obj fields => ExactFields fields
  | .null | .bool _ | .str _ => True

def ExactItems : List Json → Prop
  | [] => True
  | item :: rest => Exact item ∧ ExactItems rest

def ExactFields : List (String × Json) → Prop
  | [] => True
  | (_, value) :: rest => Exact value ∧ ExactFields rest

end

mutual

theorem decoded_eq_self_iff : ∀ j : Json, j.decoded = j ↔ j.Exact
  | .null | .bool _ | .str _ => ⟨fun _ => trivial, fun _ => rfl⟩
  | .num n => by
    unfold decoded Exact
    cases float64 n <;> simp
  | .arr items => by
    unfold decoded Exact
    rw [← decodedItems_eq_self_iff items]
    exact ⟨fun h => (by injection h), fun h => congrArg arr h⟩
  | .obj fields => by
    unfold decoded Exact
    rw [← decodedFields_eq_self_iff fields]
    exact ⟨fun h => (by injection h), fun h => congrArg obj h⟩

theorem decodedItems_eq_self_iff : ∀ items : List Json, decodedItems items = items ↔ ExactItems items
  | [] => ⟨fun _ => trivial, fun _ => rfl⟩
  | item :: rest => by
    unfold decodedItems ExactItems
    rw [List.cons.injEq, decoded_eq_self_iff item, decodedItems_eq_self_iff rest]

theorem decodedFields_eq_self_iff : ∀ fields : List (String × Json), decodedFields fields = fields ↔ ExactFields fields
  | [] => ⟨fun _ => trivial, fun _ => rfl⟩
  | (key, value) :: rest => by
    unfold decodedFields ExactFields
    rw [List.cons.injEq, Prod.mk.injEq, decoded_eq_self_iff value, decodedFields_eq_self_iff rest]
    simp only [true_and]

end

-- no `float64`, and written back as it was
example : decoded (.num (1 / 10)) = .num (1 / 10) := by
  rw [decoded_eq_self_iff]
  unfold Exact
  decide +kernel

end Json

end HotAI.Lib
