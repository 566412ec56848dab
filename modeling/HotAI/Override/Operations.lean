import HotAI.Override.Conditions

/-! # Operations on the request body

The operations that read and write the JSON document of the request, with the texts of their errors. -/
namespace HotAI.Override
open HotAI.Lib

inductive Mode where
  | delete | set | move | copy | prepend | append | trimPrefix | trimSuffix | ensurePrefix
  | ensureSuffix | trimSpace | toLower | toUpper | replace | regexReplace | returnError | pruneObjects
  | setHeader | deleteHeader | copyHeader | moveHeader | passHeaders | syncFields
  | unknown (mode : String)
deriving DecidableEq, Repr

def Mode.parse : String → Mode
  | "delete" => .delete
  | "set" => .set
  | "move" => .move
  | "copy" => .copy
  | "prepend" => .prepend
  | "append" => .append
  | "trim_prefix" => .trimPrefix
  | "trim_suffix" => .trimSuffix
  | "ensure_prefix" => .ensurePrefix
  | "ensure_suffix" => .ensureSuffix
  | "trim_space" => .trimSpace
  | "to_lower" => .toLower
  | "to_upper" => .toUpper
  | "replace" => .replace
  | "regex_replace" => .regexReplace
  | "return_error" => .returnError
  | "prune_objects" => .pruneObjects
  | "set_header" => .setHeader
  | "delete_header" => .deleteHeader
  | "copy_header" => .copyHeader
  | "move_header" => .moveHeader
  | "pass_headers" => .passHeaders
  | "sync_fields" => .syncFields
  | other => .unknown other

structure ParamOperation where
  path : String
  mode : String
  value : Json
  keepOrigin : Bool
  «from» : String
  «to» : String
  conditions : List ConditionOperation
  logic : String

/-! ## Reading the configuration -/

def stringField (fields : Fields) (key : String) : Option String :=
  (Assoc.get fields key).bind Json.asString

def boolField (fields : Fields) (key : String) : Bool :=
  ((Assoc.get fields key).bind Json.asBool).getD false

def fullCondition (path : String) (value : Json) : ConditionOperation :=
  ⟨path, "full", value, false, false⟩

def parseCondition : Json → Except String ConditionOperation
  | .obj item =>
      let path := (stringField item "path").getD ""
      let mode := (stringField item "mode").getD ""
      if Lib.trimSpace path = "" ∨ Lib.trimSpace mode = "" then .error "condition path/mode is required"
      else .ok ⟨path, mode, (Assoc.get item "value").getD .null, boolField item "invert",
        boolField item "pass_missing_key"⟩
  | _ => .error "condition must be object"

def parseConditionOperations : Json → Except String (List ConditionOperation)
  | .obj fields =>
      let conditions := fields.filterMap fun item =>
        if Lib.trimSpace item.1 = "" then none else some (fullCondition (Lib.trimSpace item.1) item.2)
      if conditions = [] then .error "conditions object must contain at least one key"
      else .ok conditions
  | .arr items => items.mapM parseCondition
  | _ => .error "conditions must be an array or object"

/-- One element of `operations`; `none` where the source gives up on the operation format. -/
def parseOperation : Json → Option ParamOperation
  | .obj opMap => do
      let mode ← stringField opMap "mode"
      let conditions ← match Assoc.get opMap "conditions" with
        | none => some []
        | some raw => (parseConditionOperations raw).toOption
      some {
        path := (stringField opMap "path").getD ""
        mode := mode
        value := (Assoc.get opMap "value").getD .null
        keepOrigin := boolField opMap "keep_origin"
        «from» := (stringField opMap "from").getD ""
        «to» := (stringField opMap "to").getD ""
        conditions := conditions
        logic := (stringField opMap "logic").getD "OR" }
  | _ => none

def tryParseOperations (paramOverride : Fields) : Option (List ParamOperation) :=
  match Assoc.get paramOverride "operations" with
  | some (.arr ops) => ops.mapM parseOperation
  | _ => none

def buildLegacyParamOverride (paramOverride : Fields) : Fields :=
  paramOverride.filter fun item => !equalFold (Lib.trimSpace item.1) "operations"

/-! ## Paths -/

def isPathBasedOperation : Mode → Bool
  | .delete | .set | .prepend | .append | .trimPrefix | .trimSuffix | .ensurePrefix | .ensureSuffix
  | .trimSpace | .toLower | .toUpper | .replace | .regexReplace | .pruneObjects => true
  | _ => false

/-- `strconv.Atoi` of a path segment that is to index an array. -/
def parseIndex (segment : String) : Option ℕ :=
  let (negative, digits) := match segment.toList with
    | '+' :: rest => (false, rest)
    | '-' :: rest => (true, rest)
    | all => (false, all)
  let value := digitsValue digits
  if digits ≠ [] ∧ digits.all Char.isDigit ∧ (negative = false ∨ value = 0) then some value else none

/-- `collected` is the path so far. -/
def collectWildcardPaths : List String → Json → List String → List String
  | [], _, collected => [".".intercalate collected]
  | first :: rest, node, collected =>
      let segment := Lib.trimSpace first
      if segment = "" then []
      else if segment = "*" then
        match node with
        | .obj fields => (fields.insertionSort fun a b => a.1 ≤ b.1).flatMap fun item =>
            collectWildcardPaths rest item.2 (collected ++ [item.1])
        | .arr items => items.zipIdx.flatMap fun item =>
            collectWildcardPaths rest item.1 (collected ++ [toString item.2])
        | _ => []
      else
        match node with
        | .obj fields =>
            if rest = [] then [".".intercalate (collected ++ [segment])]
            else match Assoc.get fields segment with
              | none => []
              | some next => collectWildcardPaths rest next (collected ++ [segment])
        | .arr items =>
            match (parseIndex segment).bind fun index => items[index]? with
            | none => []
            | some next =>
                if rest = [] then [".".intercalate (collected ++ [segment])]
                else collectWildcardPaths rest next (collected ++ [segment])
        | _ => []

/-- `lo.Uniq`: the first occurrence of each element stays. -/
def uniq (items : List String) : List String := items.reverse.dedup.reverse

def resolveOperationPaths (data : Json) (path : String) : List String :=
  if contains path "*" then uniq (collectWildcardPaths (split path ".") data []) else [path]

/-! ## Reading and writing values -/

variable (lib : Libraries)

def unsupportedType {α : Type} (value : Option Json) : Except String α :=
  .error ("operation not supported for type: " ++ (resultKind value).name)

def moveValue (data : Json) (fromPath toPath : String) : Except String Json :=
  match lib.get data fromPath with
  | none => .error ("source path does not exist: " ++ fromPath)
  | some value => do
      let result ← lib.set data toPath value
      lib.delete result fromPath

def copyValue (data : Json) (fromPath toPath : String) : Except String Json :=
  match lib.get data fromPath with
  | none => .error ("source path does not exist: " ++ fromPath)
  | some value => lib.set data toPath value

def deleteValue (data : Json) (path : String) : Except String Json :=
  if Lib.trimSpace path = "" then .ok data else lib.delete data path

def modifyArray (data : Json) (path : String) (items : List Json) (value : Json) (isPrepend : Bool) : Except String Json :=
  let added := match value with
    | .arr values => values
    | single => [single]
  -- a slice that nothing was appended to is nil, and is written as null
  match if isPrepend then added ++ items else items ++ added with
  | [] => lib.set data path .null
  | newArray => lib.set data path (.arr newArray)

def modifyString (data : Json) (path current : String) (value : Json) (isPrepend : Bool) : Except String Json :=
  lib.set data path (.str (if isPrepend then lib.sprint value ++ current else current ++ lib.sprint value))

/-- The error of `encoding/json` for a value that is not an object. -/
def cannotUnmarshalIntoMap (value : Json) : String :=
  let found := match value with
    | .bool _ => "bool"
    | .num _ => "number"
    | .str _ => "string"
    | _ => "array"
  "json: cannot unmarshal " ++ found ++ " into Go value of type map[string]interface \x7b\x7d"

def mergeObjects (data : Json) (path : String) (current : Fields) (value : Json) (keepOrigin : Bool) :
    Except String Json := do
  let newMap ← match value with
    | .obj fields => .ok fields
    | .null => .ok []
    | other => .error (cannotUnmarshalIntoMap other)
  let result := newMap.foldl (fun result item =>
    match Assoc.get result item.1 with
    | none | some .null => Assoc.set result item.1 item.2
    | some _ => if keepOrigin then result else Assoc.set result item.1 item.2) current
  lib.set data path (.obj result)

def modifyValue (data : Json) (path : String) (value : Json) (keepOrigin isPrepend : Bool) : Except String Json :=
  match lib.get data path with
  | some (.arr items) => modifyArray lib data path items value isPrepend
  | some (.str current) => modifyString lib data path current value isPrepend
  | some (.obj fields) => mergeObjects lib data path fields value keepOrigin
  | other => unsupportedType other

def withString (data : Json) (path : String) (f : String → Except String Json) : Except String Json :=
  match lib.get data path with
  | some (.str current) => f current
  | other => unsupportedType other

def trimStringValue (data : Json) (path : String) (value : Json) (isPrefix : Bool) : Except String Json :=
  withString lib data path fun current =>
    match value with
    | .null => .error "trim value is required"
    | _ => lib.set data path (.str (if isPrefix then trimPrefix current (lib.sprint value)
        else trimSuffix current (lib.sprint value)))

def ensureStringAffix (data : Json) (path : String) (value : Json) (isPrefix : Bool) : Except String Json :=
  withString lib data path fun current =>
    match value with
    | .null => .error "ensure value is required"
    | _ =>
      let valueStr := lib.sprint value
      if valueStr = "" then .error "ensure value is required"
      else if isPrefix then
        if hasPrefix current valueStr then .ok data else lib.set data path (.str (valueStr ++ current))
      else if hasSuffix current valueStr then .ok data
      else lib.set data path (.str (current ++ valueStr))

def transformStringValue (data : Json) (path : String) (transform : String → String) : Except String Json :=
  withString lib data path fun current => lib.set data path (.str (transform current))

def replaceStringValue (data : Json) (path old new : String) : Except String Json :=
  withString lib data path fun current =>
    if old = "" then .error "replace from is required"
    else lib.set data path (.str (replaceAll current old new))

def regexReplaceStringValue (data : Json) (path pattern replacement : String) : Except String Json :=
  withString lib data path fun current =>
    if pattern = "" then .error "regex pattern is required"
    else do
      let result ← lib.regexReplace pattern replacement current
      lib.set data path (.str result)

/-! ## Pruning -/

structure PruneObjectsOptions where
  conditions : List ConditionOperation
  logic : String
  recursive : Bool

def parsePruneObjectsOptions (value : Json) : Except String PruneObjectsOptions := do
  let opts : PruneObjectsOptions ← match value with
    | .null => .error "prune_objects value is required"
    | .str raw =>
        if Lib.trimSpace raw = "" then .error "prune_objects value is required"
        else .ok ⟨[fullCondition "type" (.str (Lib.trimSpace raw))], "AND", true⟩
    | .obj raw => do
        let logic := match stringField raw "logic" with
          | some logic => if Lib.trimSpace logic = "" then "AND" else logic
          | none => "AND"
        let recursive := ((Assoc.get raw "recursive").bind Json.asBool).getD true
        let conditions ← match Assoc.get raw "conditions" with
          | some condRaw => parseConditionOperations condRaw
          | none => .ok []
        let wheres ← match Assoc.get raw "where" with
          | some (.obj whereMap) => .ok (whereMap.filterMap fun item =>
              if Lib.trimSpace item.1 = "" then none
              else some (fullCondition (Lib.trimSpace item.1) item.2))
          | some _ => .error "prune_objects where must be object"
          | none => .ok []
        let types := match Assoc.get raw "type" with
          | some matchType => [fullCondition "type" matchType]
          | none => []
        .ok ⟨conditions ++ wheres ++ types, logic, recursive⟩
    | _ => .error "prune_objects value must be string or object"
  if opts.conditions = [] then .error "prune_objects conditions are required" else .ok opts

def shouldPruneObject (node : Fields) (options : PruneObjectsOptions) (contextJSON : Option Json) : Except String Bool :=
  checkConditions lib (.obj node) contextJSON options.conditions options.logic

mutual

/-- The cleaned node, or `none` if it is dropped. -/
def pruneObjectsNode (options : PruneObjectsOptions) (contextJSON : Option Json) (isRoot : Bool) :
    Json → Except String (Option Json)
  | .arr items => do
      let result ← pruneItems options contextJSON items
      .ok (some (.arr result))
  | .obj fields => do
      let shouldDrop ← shouldPruneObject lib fields options contextJSON
      if shouldDrop && !isRoot then .ok none
      else if options.recursive then do
        let result ← pruneFields options contextJSON fields
        .ok (some (.obj result))
      else .ok (some (.obj fields))
  | node => .ok (some node)

def pruneItems (options : PruneObjectsOptions) (contextJSON : Option Json) : List Json → Except String (List Json)
  | [] => .ok []
  | item :: rest => do
      let next ← pruneObjectsNode options contextJSON false item
      let others ← pruneItems options contextJSON rest
      .ok (next.toList ++ others)

def pruneFields (options : PruneObjectsOptions) (contextJSON : Option Json) :
    List (String × Json) → Except String (List (String × Json))
  | [] => .ok []
  | (key, child) :: rest => do
      let next ← pruneObjectsNode options contextJSON false child
      let others ← pruneFields options contextJSON rest
      .ok (next.toList.map (key, ·) ++ others)

end

def pruneObjects (data : Json) (path : String) (contextJSON : Option Json) (value : Json) : Except String Json := do
  let options ← parsePruneObjectsOptions value
  if path = "" then do
    let cleaned ← pruneObjectsNode lib options contextJSON true data
    .ok (cleaned.getD .null)
  else match lib.get data path with
    | none => .ok data
    | some target => do
        let cleaned ← pruneObjectsNode lib options contextJSON true target
        lib.set data path (cleaned.getD .null)

end HotAI.Override
