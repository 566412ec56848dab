import HotAI.Lib.Json

/-! # Operations of a parameter override and their conditions

How the `operations` of a channel's parameter override (`relay/common/override.go`) are read, when their conditions hold,
and which paths they address. What `gjson`, `sjson` and `regexp` do is given by a `Libraries`. -/
namespace HotAI.Override
open HotAI.Lib

/-- The functions of other packages that the override code calls. -/
structure Libraries where
  /-- `gjson.GetBytes`; `none` is a result that does not exist. -/
  get : Json → String → Option Json
  /-- `sjson.SetBytes`. -/
  set : Json → String → Json → Except String Json
  /-- `sjson.DeleteBytes`. -/
  delete : Json → String → Except String Json
  /-- What `Result.String` gives for a number, an array or an object. -/
  rawText : Json → String
  formatFloat : ℚ → String
  /-- `common.UnmarshalJsonStr`. -/
  unmarshal : String → Option Json
  unmarshal_weight : ∀ s value, unmarshal s = some value → value.weight ≤ s.length
  /-- `regexp.Compile` of the pattern, then `ReplaceAllString` of the text. -/
  regexReplace : String → String → String → Except String String
  /-- `regexp.Compile`, then `MatchString`. -/
  regexMatch : String → Except String (String → Bool)

/-- Libraries that know the top-level members of a document only. -/
def sampleLibraries : Libraries where
  get data path := data.asObject.bind (Assoc.get · path)
  set data path value := .ok (.obj (Assoc.set (data.asObject.getD []) path value))
  delete data path := .ok (.obj (Assoc.erase (data.asObject.getD []) path))
  rawText _ := ""
  formatFloat _ := ""
  unmarshal _ := none
  unmarshal_weight _ _ h := by cases h
  regexReplace _ _ text := .ok text
  regexMatch _ := .error "error parsing regexp"

variable (lib : Libraries)

/-- `fmt.Sprintf("%v", value)`. -/
def Libraries.sprint (value : Json) : String := value.sprint lib.formatFloat

/-! ## gjson results -/

inductive Kind where
  | null | falseValue | number | string | trueValue | json
deriving DecidableEq, Repr

def Kind.name : Kind → String
  | .null => "Null"
  | .falseValue => "False"
  | .number => "Number"
  | .string => "String"
  | .trueValue => "True"
  | .json => "JSON"

def kind : Json → Kind
  | .null => .null
  | .bool b => if b then .trueValue else .falseValue
  | .num _ => .number
  | .str _ => .string
  | .arr _ | .obj _ => .json

/-- `Result.String`. -/
def Libraries.text : Json → String
  | .null => ""
  | .bool b => if b then "true" else "false"
  | .str s => s
  | value => lib.rawText value

def resultKind (value : Option Json) : Kind := value.elim .null kind

/-! ## Conditions -/

inductive CompareMode where
  | full | prefixed | suffixed | contains | gt | gte | lt | lte
  | unsupported (mode : String)
deriving DecidableEq, Repr

def CompareMode.parse (mode : String) : CompareMode :=
  match toLower mode with
  | "full" => .full
  | "prefix" => .prefixed
  | "suffix" => .suffixed
  | "contains" => .contains
  | "gt" => .gt
  | "gte" => .gte
  | "lt" => .lt
  | "lte" => .lte
  | other => .unsupported other

structure ConditionOperation where
  path : String
  mode : String
  value : Json
  invert : Bool
  passMissingKey : Bool

def compareEqual (jsonValue targetValue : Json) : Except String Bool :=
  match jsonValue, targetValue with
  | .null, .null => .ok true
  | .null, _ | _, .null => .ok false
  | .bool a, .bool b => .ok (a == b)
  | .num a, .num b => .ok (a == b)
  | .str a, .str b => .ok (a == b)
  | a, b =>
      if kind a = kind b then .ok (lib.text a == lib.text b)
      else .error ("compare for different types, got " ++ (kind a).name ++ " and " ++ (kind b).name)

def compareNumeric (holds : ℚ → ℚ → Bool) (jsonValue targetValue : Json) : Except String Bool :=
  match jsonValue, targetValue with
  | .num a, .num b => .ok (holds a b)
  | a, b => .error ("numeric comparison requires both values to be numbers, got " ++ (kind a).name ++
      " and " ++ (kind b).name)

def compareGjsonValues (jsonValue targetValue : Json) : CompareMode → Except String Bool
  | .full => compareEqual lib jsonValue targetValue
  | .prefixed => .ok (hasPrefix (lib.text jsonValue) (lib.text targetValue))
  | .suffixed => .ok (hasSuffix (lib.text jsonValue) (lib.text targetValue))
  | .contains => .ok (contains (lib.text jsonValue) (lib.text targetValue))
  | .gt => compareNumeric (fun a b => b < a) jsonValue targetValue
  | .gte => compareNumeric (fun a b => b ≤ a) jsonValue targetValue
  | .lt => compareNumeric (fun a b => a < b) jsonValue targetValue
  | .lte => compareNumeric (fun a b => a ≤ b) jsonValue targetValue
  | .unsupported mode => .error ("unsupported comparison mode: " ++ mode)

/-! ### Negative indices -/

/-- The matches of `\.(-\d+)` in a path, each as the text of its group. -/
def negativeIndices : List Char → List (List Char)
  | '.' :: '-' :: rest =>
      let digits := rest.takeWhile Char.isDigit
      if digits = [] then negativeIndices rest else ('-' :: digits) :: negativeIndices rest
  | _ :: rest => negativeIndices rest
  | [] => []

/-- `strconv.Atoi` of a minus sign and digits, negated. -/
def digitsValue (digits : List Char) : ℕ :=
  digits.foldl (fun n c => 10 * n + (c.toNat - '0'.toNat)) 0

def processNegativeIndex (data : Json) (path : String) : String :=
  (negativeIndices path.toList).foldl (fun result negIndex =>
    let arrayPath := trimSuffix ((split path (String.ofList negIndex)).headD "") "."
    match lib.get data arrayPath with
    | some (.arr items) =>
        let back := digitsValue negIndex.tail
        if 0 < back ∧ back ≤ items.length then
          replaceFirst result ("." ++ String.ofList negIndex) ("." ++ toString (items.length - back))
        else result
    | _ => result) path

def checkSingleCondition (data : Json) (contextJSON : Option Json) (condition : ConditionOperation) : Except String Bool :=
  let found := (lib.get data (processNegativeIndex lib data condition.path)).orElse
    fun _ => contextJSON.bind (lib.get · condition.path)
  match found with
  | none => .ok condition.passMissingKey
  | some value =>
      match compareGjsonValues lib value condition.value (CompareMode.parse condition.mode) with
      | .error err => .error ("comparison failed for path " ++ condition.path ++ ": " ++ err)
      | .ok result => .ok (if condition.invert then !result else result)

def checkConditions (data : Json) (contextJSON : Option Json) (conditions : List ConditionOperation)
    (logic : String) : Except String Bool :=
  if conditions = [] then .ok true
  else do
    let results ← conditions.mapM (checkSingleCondition lib data contextJSON)
    .ok (if toUpper logic = "AND" then results.all id else results.any id)

end HotAI.Override
