import HotAI.Override.Headers

/-! # Applying a parameter override

`ApplyParamOverride`: the operations one after the other over the document and the context, or the
old format in which every member of the override is written to the top level of the document. -/
namespace HotAI.Override
open HotAI.Lib

structure ParamOverrideReturnError where
  message : String
  statusCode : ℤ
  code : String
  errorType : String
  skipRetry : Bool
deriving DecidableEq, Repr

inductive OverrideError where
  | failed (message : String)
  | returned (err : ParamOverrideReturnError)
deriving DecidableEq, Repr

variable (lib : Libraries)

/-! ## `return_error` -/

/-- A number of a configuration is an `int` if it has no fraction. -/
def parseOverrideInt : Json → Option ℤ
  | .num n => if n.den = 1 then some n.num else none
  | _ => none

def returnErrorStatus (raw : Fields) : Except String ℤ :=
  match Assoc.get raw "status_code", Assoc.get raw "status" with
  | some statusCodeRaw, _ => match parseOverrideInt statusCodeRaw with
      | some statusCode => .ok statusCode
      | none => .error "return_error status_code must be an integer"
  | none, some statusRaw => match parseOverrideInt statusRaw with
      | some statusCode => .ok statusCode
      | none => .error "return_error status must be an integer"
  | none, none => .ok 400

def textOr (text : Option String) (otherwise : String) : String :=
  let trimmed := trimSpace (text.getD "")
  if trimmed = "" then otherwise else trimmed

def parseParamOverrideReturnError (value : Json) : Except String ParamOverrideReturnError := do
  let result : ParamOverrideReturnError ← match value with
    | .null => .error "return_error value is required"
    | .str raw => .ok ⟨trimSpace raw, 400, "invalid_request", "invalid_request_error", true⟩
    | .obj raw => do
        let statusCode ← returnErrorStatus raw
        .ok {
          message := textOr (stringField raw "message") (trimSpace ((stringField raw "msg").getD ""))
          statusCode := statusCode
          code := textOr ((Assoc.get raw "code").map lib.sprint) "invalid_request"
          errorType := textOr (stringField raw "type") "invalid_request_error"
          skipRetry := ((Assoc.get raw "skip_retry").bind Json.asBool).getD true }
    | _ => .error "return_error value must be string or object"
  if result.message = "" then .error "return_error message is required"
  else if result.statusCode < 100 ∨ 511 < result.statusCode then
    .error ("return_error status code out of range: " ++ toString result.statusCode)
  else .ok result

/-! ## One operation -/

def passHeaders (keepOrigin : Bool) (context : Fields) : List String → Fields × Option HeaderError
  | [] => (context, none)
  | headerName :: rest =>
      match copyHeaderInContext lib context headerName headerName keepOrigin with
      | (context, some (.failed message)) => (context, some (.failed message))
      | (context, _) => passHeaders keepOrigin context rest

/-- The source and target of `copy_header` and `move_header`, which default to the path. -/
def headerEnds (op : ParamOperation) : String × String :=
  let orPath (name : String) := if trimSpace name = "" then trimSpace op.path else trimSpace name
  (orPath op.from, orPath op.to)

def ignoreMissingSource : Fields × Option HeaderError → Except String Fields
  | (_, some (.failed message)) => .error message
  | (context, _) => .ok context

def applyToBody (op : ParamOperation) (contextJSON : Option Json) (data : Json) (opPaths : List String) :
    Mode → Except String Json
  | .delete => opPaths.foldlM (deleteValue lib) data
  | .set => opPaths.foldlM (fun data path =>
      if op.keepOrigin && (lib.get data path).isSome then .ok data else lib.set data path op.value) data
  | .move => moveValue lib data (processNegativeIndex lib data op.from) (processNegativeIndex lib data op.to)
  | .copy => copyValue lib data (processNegativeIndex lib data op.from) (processNegativeIndex lib data op.to)
  | .prepend => opPaths.foldlM (fun data path => modifyValue lib data path op.value op.keepOrigin true) data
  | .append => opPaths.foldlM (fun data path => modifyValue lib data path op.value op.keepOrigin false) data
  | .trimPrefix => opPaths.foldlM (fun data path => trimStringValue lib data path op.value true) data
  | .trimSuffix => opPaths.foldlM (fun data path => trimStringValue lib data path op.value false) data
  | .ensurePrefix => opPaths.foldlM (fun data path => ensureStringAffix lib data path op.value true) data
  | .ensureSuffix => opPaths.foldlM (fun data path => ensureStringAffix lib data path op.value false) data
  | .trimSpace => opPaths.foldlM (fun data path => transformStringValue lib data path Lib.trimSpace) data
  | .toLower => opPaths.foldlM (fun data path => transformStringValue lib data path Lib.toLower) data
  | .toUpper => opPaths.foldlM (fun data path => transformStringValue lib data path Lib.toUpper) data
  | .replace => opPaths.foldlM (fun data path => replaceStringValue lib data path op.from op.to) data
  | .regexReplace =>
      opPaths.foldlM (fun data path => regexReplaceStringValue lib data path op.from op.to) data
  | .pruneObjects => opPaths.foldlM (fun data path => pruneObjects lib data path contextJSON op.value) data
  | _ => .ok data

def applyToHeaders (op : ParamOperation) (context : Fields) : Mode → Except String Fields
  | .setHeader => match setHeaderOverrideInContext lib context op.path op.value op.keepOrigin with
      | (_, some err) => .error err.message
      | (context, none) => .ok context
  | .deleteHeader => match deleteHeaderOverrideInContext context op.path with
      | (_, some err) => .error err.message
      | (context, none) => .ok context
  | .copyHeader => ignoreMissingSource
      (copyHeaderInContext lib context (headerEnds op).1 (headerEnds op).2 op.keepOrigin)
  | .moveHeader => ignoreMissingSource
      (moveHeaderInContext lib context (headerEnds op).1 (headerEnds op).2 op.keepOrigin)
  | _ => .ok context

def operationFailed (mode err : String) : OverrideError := .failed ("operation " ++ mode ++ " failed: " ++ err)

def bodyResult (mode : String) (context : Fields) : Except String Json → Except OverrideError (Json × Fields)
  | .error err => .error (operationFailed mode err)
  | .ok data => .ok (data, context)

def headersResult (mode : String) (data : Json) : Except String Fields → Except OverrideError (Json × Fields)
  | .error err => .error (operationFailed mode err)
  | .ok context => .ok (data, context)

def applyOperation (op : ParamOperation) (data : Json) (context : Fields) (contextJSON : Option Json) :
    Except OverrideError (Json × Fields) :=
  let mode := Mode.parse op.mode
  let opPaths := if isPathBasedOperation mode
    then resolveOperationPaths data (processNegativeIndex lib data op.path) else []
  if isPathBasedOperation mode ∧ opPaths = [] then .ok (data, context)
  else match mode with
    | .returnError => match parseParamOverrideReturnError lib op.value with
        | .error err => .error (.failed err)
        | .ok err => .error (.returned err)
    | .unknown name => .error (.failed ("unknown operation: " ++ name))
    | .copy =>
        if op.from = "" ∨ op.to = "" then .error (.failed "copy from/to is required")
        else bodyResult op.mode context (applyToBody lib op contextJSON data opPaths .copy)
    | .setHeader | .deleteHeader | .copyHeader | .moveHeader =>
        headersResult op.mode data (applyToHeaders lib op context mode)
    | .passHeaders => match parseHeaderPassThroughNames lib op.value with
        | .error err => .error (.failed err)
        | .ok headerNames => match passHeaders lib op.keepOrigin context headerNames with
          | (_, some err) => .error (operationFailed op.mode err.message)
          | (context, none) => .ok (data, context)
    | .syncFields => match syncFieldsBetweenTargets lib data context op.from op.to with
        | .error err => .error (operationFailed op.mode err)
        | .ok result => .ok result
    | _ => bodyResult op.mode context (applyToBody lib op contextJSON data opPaths mode)

/-! ## The whole override -/

def marshalContextJSON (context : Fields) : Option Json :=
  if context = [] then none else some (.obj context)

def applyOperations : List ParamOperation → Json → Fields → Except OverrideError (Json × Fields)
  | [], data, context => .ok (data, context)
  | op :: rest, data, context =>
      let contextJSON := marshalContextJSON context
      match checkConditions lib data contextJSON op.conditions op.logic with
      | .error err => .error (.failed err)
      | .ok false => applyOperations rest data context
      | .ok true => do
          let (data, context) ← applyOperation lib op data context contextJSON
          applyOperations rest data context

/-- A key that `sjson` is to take literally. -/
def escapeSjsonLiteralKey (key : String) : String :=
  String.ofList (key.toList.flatMap fun c => if c ∈ ['.', '*', '?', '\\'] then ['\\', c] else [c])

def applyOperationsLegacy (jsonData : Json) (paramOverride : Fields) : Except String Json :=
  paramOverride.foldlM (fun data item => lib.set data (escapeSjsonLiteralKey item.1) item.2) jsonData

def applyParamOverride (jsonData : Json) (paramOverride : Fields) (context : Fields) :
    Except OverrideError (Json × Fields) :=
  if paramOverride = [] then .ok (jsonData, context)
  else match tryParseOperations paramOverride with
    | some operations =>
        match applyOperationsLegacy lib jsonData (buildLegacyParamOverride paramOverride) with
        | .error err => .error (.failed err)
        | .ok workingJSON => applyOperations lib operations workingJSON context
    | none =>
        match applyOperationsLegacy lib jsonData paramOverride with
        | .error err => .error (.failed err)
        | .ok result => .ok (result, context)

end HotAI.Override
