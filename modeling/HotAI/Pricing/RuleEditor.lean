import HotAI.Pricing.BillingExpr

/-! # Request rules in the editor (`pricing/lib/billing-expr.ts`)

`buildRequestRuleExpr` prints the rules as factors `(conditions ? multiplier : 1)`, `tryParseRequestRuleExpr` reads them
back, and `splitBillingExprAndRequestRules` takes the parts of an expression that are read in this way off its base.
`JSON.stringify` is written out, `JSON.parse` is a parameter: `none` is an exception. -/
namespace HotAI.RuleEditor
open HotAI.Lib JsonText
open HotAI.BillingExpr (Text trim splitTopLevel splitTopLevelMultiply splitTopLevelAnd isNumberChar isNumberText
  isLineTerminator readCall literalArgument isJson inParens isNumericLiteral paramGuard stripEnd)

/-! ## Conditions -/

inductive TimeFunc where
  | hour
  | minute
  | weekday
  | month
  | day
deriving DecidableEq, Repr

def TimeFunc.all : List TimeFunc := [.hour, .minute, .weekday, .month, .day]

def TimeFunc.name : TimeFunc → String
  | .hour => "hour"
  | .minute => "minute"
  | .weekday => "weekday"
  | .month => "month"
  | .day => "day"

inductive TimeMode where
  | eq
  | gte
  | lt
  | range
deriving DecidableEq, Repr

inductive Source where
  | param
  | header
deriving DecidableEq, Repr

def Source.name : Source → String
  | .param => "param"
  | .header => "header"

inductive CompareOp where
  | gt
  | gte
  | lt
  | lte
deriving DecidableEq, Repr

def CompareOp.all : List CompareOp := [.gt, .gte, .lt, .lte]

def CompareOp.symbol : CompareOp → String
  | .gt => ">"
  | .gte => ">="
  | .lt => "<"
  | .lte => "<="

/-- The modes of a param or header condition other than the comparisons with a number. -/
inductive Mode where
  | eq
  | contains
  | isPresent
deriving DecidableEq, Repr

inductive RequestCondition where
  | time (timeFunc : TimeFunc) (timezone : Text) (mode : TimeMode) (value rangeStart rangeEnd : Text)
  | field (source : Source) (path : Text) (mode : Mode) (value : Text)
  | compare (path : Text) (op : CompareOp) (value : Text)
deriving DecidableEq, Repr

structure RequestRuleGroup where
  conditions : List RequestCondition
  multiplier : Text
deriving DecidableEq, Repr

/-! ## Printing -/

def escapeChar (c : Char) : Text :=
  if c = '"' then ['\\', '"']
  else if c = '\\' then ['\\', '\\']
  else if c = '\u0008' then ['\\', 'b']
  else if c = '\u000c' then ['\\', 'f']
  else if c = '\n' then ['\\', 'n']
  else if c = '\r' then ['\\', 'r']
  else if c = '\t' then ['\\', 't']
  else if c.toNat < 32 then ['\\', 'u', '0', '0', Nat.digitChar (c.toNat / 16), Nat.digitChar (c.toNat % 16)]
  else [c]

def escape (s : Text) : Text := s.flatMap escapeChar

/-- `JSON.stringify` of a string. -/
def quote (s : Text) : Text := '"' :: escape s ++ ['"']

def call (fn : String) (arg : Text) : Text := (fn ++ "(").toList ++ arg ++ [')']

def buildExprLiteral (mode : Mode) (value : Text) : Text :=
  if mode = .contains then quote (trim value)
  else if trim value = "true".toList ∨ trim value = "false".toList then trim value
  else if isNumericLiteral (trim value) then trim value
  else quote (trim value)

def timeOp : TimeMode → String
  | .gte => " >= "
  | .lt => " < "
  | _ => " == "

def buildTimeConditionExpr (timeFunc : TimeFunc) (timezone : Text) (mode : TimeMode) (value rangeStart rangeEnd : Text) :
    Text :=
  let fn := call timeFunc.name (quote timezone)
  if mode = .range then
    if !isNumericLiteral (trim rangeStart) || !isNumericLiteral (trim rangeEnd) then []
    else fn ++ " >= ".toList ++ trim rangeStart ++ " || ".toList ++ fn ++ " < ".toList ++ trim rangeEnd
  else if !isNumericLiteral (trim value) then []
  else fn ++ (timeOp mode).toList ++ trim value

/-- `has(sourceExpr, "text")`. -/
def hasExpr (sourceExpr value : Text) : Text :=
  "has(".toList ++ sourceExpr ++ ", ".toList ++ buildExprLiteral .contains value ++ [')']

def buildRequestConditionExpr : RequestCondition → Text
  | .time timeFunc timezone mode value rangeStart rangeEnd =>
      buildTimeConditionExpr timeFunc timezone mode value rangeStart rangeEnd
  | .field source path mode value =>
      let sourceExpr := call source.name (quote (trim path))
      if trim path = [] then []
      else match mode, source with
        | .isPresent, .header => sourceExpr ++ " != \"\"".toList
        | .isPresent, .param => sourceExpr ++ " != nil".toList
        | .contains, .header => hasExpr sourceExpr value
        | .contains, .param => sourceExpr ++ " != nil && ".toList ++ hasExpr sourceExpr value
        | .eq, _ => sourceExpr ++ " == ".toList ++ buildExprLiteral .eq value
  | .compare path op value =>
      let sourceExpr := call "param" (quote (trim path))
      if trim path = [] then []
      else if !isNumericLiteral (trim value) then []
      else sourceExpr ++ " != nil && ".toList ++ (sourceExpr ++ (" " ++ op.symbol ++ " ").toList ++ trim value)

def andSign : Text := [' ', '&', '&', ' ']

def orSign : Text := [' ', '|', '|', ' ']

def paren (e : Text) : Text := '(' :: e ++ [')']

def combined : List Text → Text
  | [e] => e
  | es => andSign.intercalate (es.map fun e => if orSign <:+: e then paren e else e)

def buildRuleGroupFactor (group : RequestRuleGroup) : Text :=
  let multiplier := trim group.multiplier
  let condExprs := (group.conditions.map buildRequestConditionExpr).filter (· ≠ [])
  if !isNumericLiteral multiplier then []
  else if condExprs = [] then []
  else '(' :: combined condExprs ++ (" ? ".toList ++ multiplier ++ " : 1)".toList)

def buildRequestRuleExpr (groups : List RequestRuleGroup) : Text :=
  BillingExpr.times.intercalate ((groups.map buildRuleGroupFactor).filter (· ≠ []))

/-! ## Reading -/

inductive JsonValue where
  | null
  /-- The text is `String(value)`. -/
  | value (text : Text)
deriving DecidableEq, Repr

structure JsonParse where
  parse : Text → Option JsonValue
  isSome_parse : ∀ s, (parse s).isSome = isJson s
  parse_quote : ∀ s, parse (quote s) = some (.value s)

variable (json : JsonParse)

def parseExprLiteral (raw : Text) : Option Text :=
  let text := trim raw
  if text = "true".toList ∨ text = "false".toList then some text
  else if isNumericLiteral text then some text
  else match json.parse text with
    | some (.value s) => some s
    | _ => none

def parseTimeRange (s : Text) : Option RequestCondition :=
  TimeFunc.all.findSome? fun fn => (readCall fn.name s).bind fun (tz, rest) => (literal " >= " rest).bind fun rest =>
    if rest.takeWhile isNumberChar = [] then none
    else (literal (" || " ++ fn.name ++ "(\"" ++ String.ofList tz ++ "\") < ") (rest.dropWhile isNumberChar)).bind fun stop =>
      if isNumberText stop then some (.time fn tz .range [] (rest.takeWhile isNumberChar) stop) else none

def parseTimeComparison (s : Text) : Option RequestCondition :=
  TimeFunc.all.findSome? fun fn => (readCall fn.name s).bind fun (tz, rest) =>
    [TimeMode.eq, .gte, .lt].findSome? fun mode => (literal (timeOp mode) rest).bind fun value =>
      if isNumberText value then some (.time fn tz mode value [] []) else none

def tryParseTimeCondition (s : Text) : Option RequestCondition :=
  (parseTimeRange s).or (((inParens s).bind parseTimeRange).or (parseTimeComparison s))

/-- `fn("path")` and then exactly `rest`. -/
def parsePresence (source : Source) (rest s : Text) : Option RequestCondition :=
  (readCall source.name s).bind fun found => if found.2 = rest then some (.field source found.1 .isPresent []) else none

/-- `has(fn("path"), "text")`, with the path and the string. -/
def parseHas (source : Source) (s : Text) : Option (Text × Text) :=
  (literal "has(" s).bind fun s => (readCall source.name s).bind fun found =>
    ((literal ", " found.2).bind literalArgument).map fun text => (found.1, text)

/-- `JSON.parse(m[2]) as string`. -/
def parseContained (source : Source) (path text : Text) : Option (Option RequestCondition) :=
  (json.parse text).map fun
    | .value value => some (.field source path .contains value)
    | .null => some (.field source path .contains [])

def parseParamHas (s : Text) : Option (Text × Text) :=
  (paramGuard s).bind fun guarded => (parseHas .param guarded.2).filter fun found => found.1 = guarded.1

def parseComparison (s : Text) : Option RequestCondition :=
  (paramGuard s).bind fun guarded => (readCall "param" guarded.2).bind fun found =>
    if found.1 ≠ guarded.1 then none
    else CompareOp.all.findSome? fun op => (literal (" " ++ op.symbol ++ " ") found.2).bind fun value =>
      if isNumberText value then some (.compare guarded.1 op value) else none

def parseEquals (s : Text) : Option RequestCondition :=
  [Source.param, .header].findSome? fun source => (readCall source.name s).bind fun found =>
    (literal " == " found.2).bind fun raw =>
      if raw = [] ∨ raw.any isLineTerminator then none
      else (parseExprLiteral json raw).map fun value => .field source found.1 .eq value

/-- `tryParseRequestCondition`: an exception, no condition, or a condition. -/
def tryParseRequestCondition (s : Text) : Option (Option RequestCondition) :=
  match (tryParseTimeCondition s).or ((parsePresence .header " != \"\"".toList s).or
      (parsePresence .param " != nil".toList s)) with
  | some condition => some (some condition)
  | none => match parseHas .header s with
      | some (path, text) => parseContained json .header path text
      | none => match parseParamHas s with
          | some (path, text) => parseContained json .param path text
          | none => some ((parseComparison s).or (parseEquals json s))

def readEach {α : Type} (read : Text → Option (Option α)) : List Text → Option (Option (List α))
  | [] => some (some [])
  | s :: rest => match read s with
      | none => none
      | some none => some none
      | some (some a) => (readEach read rest).map (Option.map (a :: ·))

/-- `(condition ? multiplier : 1)`, with the condition and the multiplier. -/
def ruleParts (part : Text) : Option (Text × Text) :=
  match part with
  | '(' :: rest => (stripEnd " : 1)".toList rest).bind fun body =>
      if body.rtakeWhile isNumberChar = [] then none
      else ((stripEnd " ? ".toList (body.rdropWhile isNumberChar)).filter (· ≠ [])).map fun condition =>
        (condition, body.rtakeWhile isNumberChar)
  | _ => none

def tryParseRuleGroupFactor (part : Text) : Option (Option RequestRuleGroup) :=
  match ruleParts part with
  | none => some none
  | some (condition, multiplier) =>
      (readEach (fun s => tryParseRequestCondition json (trim s)) (splitTopLevelAnd condition)).map fun found =>
        found.bind fun conditions => if conditions = [] then none else some ⟨conditions, multiplier⟩

def tryParseRequestRuleExpr (expr : Text) : Option (Option (List RequestRuleGroup)) :=
  if trim expr = [] then some (some [])
  else readEach (tryParseRuleGroupFactor json) (splitTopLevelMultiply (trim expr))

end HotAI.RuleEditor

namespace HotAI.BillingExpr
open HotAI.Lib

/-! ## Splitting and combining -/

/-- The loop of `hasFullOuterParens`: the depth is zero at the end of the text and not before. -/
def closesLast : ℤ → Text → Bool
  | depth, [] => depth = 0
  | depth, c :: rest => if depthAfter depth c = 0 ∧ rest ≠ [] then false else closesLast (depthAfter depth c) rest

def hasFullOuterParens (s : Text) : Bool := (inParens s).isSome && closesLast 0 s

def unwrapLoop : ℕ → Text → Text
  | 0, s => s
  | fuel + 1, s => if hasFullOuterParens s then unwrapLoop fuel (trim (s.drop 1).dropLast) else s

def unwrapOuterParens (s : Text) : Text := unwrapLoop s.length (trim s)

variable (json : RuleEditor.JsonParse)

/-- The parts, and whether each is read as at least one rule. -/
def classified (parts : List Text) : Option (List (Text × Bool)) :=
  parts.mapM fun part => (RuleEditor.tryParseRequestRuleExpr json part).map fun found => (part, found.any (· ≠ []))

def ruleParts (parts : List (Text × Bool)) : List Text := (parts.filter (·.2)).map Prod.fst

def baseParts (parts : List (Text × Bool)) : List Text := (parts.filter (!·.2)).map Prod.fst

def splitBillingExprAndRequestRules (expr : Text) : Option (Text × Text) :=
  if trim expr = [] then some ([], [])
  else if (splitTopLevelMultiply (trim expr)).length ≤ 1 then some (trim expr, [])
  else (classified json (splitTopLevelMultiply (trim expr))).map fun parts =>
    match ruleParts parts, baseParts parts with
    | rule :: rules, [base] => (unwrapOuterParens base, times.intercalate (rule :: rules))
    | _, _ => (trim expr, [])

def combineBillingExpr (baseExpr requestRuleExpr : Text) : Text :=
  if trim baseExpr = [] then []
  else if trim requestRuleExpr = [] then trim baseExpr
  else '(' :: trim baseExpr ++ ')' :: times ++ trim requestRuleExpr

def reopened (expr : Text) : Option Text :=
  (splitBillingExprAndRequestRules json expr).map fun split => combineBillingExpr split.1 split.2

/-- `ParseExprVersion`, the text after the version. -/
def parseExprVersion (expr : Text) : Text :=
  if "v1:".toList.isPrefixOf expr then expr.drop 3 else expr

end HotAI.BillingExpr
