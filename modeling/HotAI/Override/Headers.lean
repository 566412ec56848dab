import HotAI.Override.Operations

/-! # Operations on the headers

The context of an override has facts about the request, its headers under `request_headers` and the header override in force
under `header_override`, which the header operations change. -/
namespace HotAI.Override
open HotAI.Lib

def paramOverrideContextRequestHeaders : String := "request_headers"

def paramOverrideContextHeaderOverride : String := "header_override"

def normalizeHeaderContextKey (key : String) : String := trimSpace (toLower key)

def isHeaderPassthroughRuleKeyForOverride (key : String) : Bool :=
  let key := trimSpace (toLower key)
  key = "*" || hasPrefix key "re:" || hasPrefix key "regex:"

variable (lib : Libraries)

def sanitizeHeader (target : Fields) (item : String × Json) : Fields :=
  let normalizedKey := normalizeHeaderContextKey item.1
  let normalizedValue := trimSpace (lib.sprint item.2)
  if normalizedKey = "" then target
  else if normalizedValue = "" then
    if isHeaderPassthroughRuleKeyForOverride normalizedKey then Assoc.set target normalizedKey (.str "")
    else target
  else Assoc.set target normalizedKey (.str normalizedValue)

def sanitizeHeaderOverrideMap (source : Fields) : Fields := source.foldl (sanitizeHeader lib) []

def ensureMapKeyInContext (context : Fields) (key : String) : Fields × Fields :=
  match Assoc.get context key with
  | some (.obj existing) => (context, existing)
  | _ => (Assoc.set context key (.obj []), [])

def headerText (source : Fields) (headerName : String) : Option String :=
  (Assoc.get source headerName).bind fun raw =>
    let value := trimSpace (lib.sprint raw)
    if value = "" then none else some value

def getHeaderValueFromContext (context : Fields) (headerName : String) : Fields × Option String :=
  let headerName := normalizeHeaderContextKey headerName
  if headerName = "" then (context, none)
  else
    let (context, override) := ensureMapKeyInContext context paramOverrideContextHeaderOverride
    match headerText lib override headerName with
    | some value => (context, some value)
    | none =>
        let (context, request) := ensureMapKeyInContext context paramOverrideContextRequestHeaders
        (context, headerText lib request headerName)

/-! ## Header values -/

def splitHeaderListValue (raw : String) : List String :=
  (split raw ",").filterMap fun item => if trimSpace item = "" then none else some (trimSpace item)

mutual

def parseHeaderReplacementTokens : Json → Except String (List String)
  | .null => .ok []
  | .str raw => .ok (splitHeaderListValue raw)
  | .arr items => do
      let tokens ← parseHeaderReplacementItems items
      .ok (uniq tokens)
  | .obj _ => .error "header replacement value must be string, array or null"
  | raw =>
      let token := trimSpace (lib.sprint raw)
      .ok (if token = "" then [] else [token])

def parseHeaderReplacementItems : List Json → Except String (List String)
  | [] => .ok []
  | item :: rest => do
      let itemTokens ← parseHeaderReplacementTokens item
      let others ← parseHeaderReplacementItems rest
      .ok (itemTokens ++ others)

end

def replaceToken (mapping : Fields) (keepOnlyDeclared : Bool) (token : String) : Except String (List String) :=
  match Assoc.get mapping token with
  | some replacement => parseHeaderReplacementTokens lib replacement
  | none =>
      if keepOnlyDeclared then .ok []
      else match Assoc.get mapping "*" with
        | some replacement => parseHeaderReplacementTokens lib replacement
        | none => .ok [token]

def resolveHeaderOverrideValueByMapping (context : Fields) (headerName : String) (mapping : Fields) :
    Fields × Except String (Option String) :=
  if mapping = [] then (context, .error "header value mapping cannot be empty")
  else match (Assoc.get mapping "$append").elim (.ok []) (parseHeaderReplacementTokens lib) with
    | .error err => (context, .error err)
    | .ok appendTokens =>
        let keepOnlyDeclared := boolField mapping "$keep_only_declared"
        let (context, sourceValue) := getHeaderValueFromContext lib context headerName
        let sourceTokens := sourceValue.elim [] splitHeaderListValue
        match sourceTokens.mapM (replaceToken lib mapping keepOnlyDeclared) with
        | .error err => (context, .error err)
        | .ok replaced =>
            let resultTokens := uniq (replaced.flatten ++ appendTokens)
            (context, .ok (if resultTokens = [] then none else some (",".intercalate resultTokens)))

/-- `none` asks for the header to be removed. -/
def resolveHeaderOverrideValue (context : Fields) (headerName : String) (value : Json) :
    Fields × Except String (Option String) :=
  match value with
  | .null => (context, .error "header value is required")
  | .obj mapping => resolveHeaderOverrideValueByMapping lib context headerName mapping
  | _ =>
      let headerValue := trimSpace (lib.sprint value)
      (context, .ok (if headerValue = "" then none else some headerValue))

/-! ## Setting, deleting, copying -/

inductive HeaderError where
  | sourceHeaderNotFound (name : String)
  | failed (message : String)
deriving DecidableEq, Repr

def HeaderError.message : HeaderError → String
  | .sourceHeaderNotFound name => "source header does not exist: " ++ name
  | .failed message => message

def updateHeaders (context : Fields) (f : Fields → Fields) : Fields :=
  let (context, rawHeaders) := ensureMapKeyInContext context paramOverrideContextHeaderOverride
  Assoc.set context paramOverrideContextHeaderOverride (.obj (f rawHeaders))

def setHeaderOverrideInContext (context : Fields) (headerName : String) (value : Json)
    (keepOrigin : Bool) : Fields × Option HeaderError :=
  let headerName := normalizeHeaderContextKey headerName
  if headerName = "" then (context, some (.failed "header name is required"))
  else
    let (context, rawHeaders) := ensureMapKeyInContext context paramOverrideContextHeaderOverride
    if keepOrigin && (headerText lib rawHeaders headerName).isSome then (context, none)
    else match resolveHeaderOverrideValue lib context headerName value with
      | (context, .error err) => (context, some (.failed err))
      | (context, .ok none) => (updateHeaders context (Assoc.erase · headerName), none)
      | (context, .ok (some headerValue)) =>
          (updateHeaders context (Assoc.set · headerName (.str headerValue)), none)

def deleteHeaderOverrideInContext (context : Fields) (headerName : String) : Fields × Option HeaderError :=
  let headerName := normalizeHeaderContextKey headerName
  if headerName = "" then (context, some (.failed "header name is required"))
  else (updateHeaders context (Assoc.erase · headerName), none)

def copyHeaderInContext (context : Fields) (fromHeader toHeader : String) (keepOrigin : Bool) :
    Fields × Option HeaderError :=
  let fromHeader := normalizeHeaderContextKey fromHeader
  let toHeader := normalizeHeaderContextKey toHeader
  if fromHeader = "" ∨ toHeader = "" then (context, some (.failed "copy_header from/to is required"))
  else match getHeaderValueFromContext lib context fromHeader with
    | (context, none) => (context, some (.sourceHeaderNotFound fromHeader))
    | (context, some value) => setHeaderOverrideInContext lib context toHeader (.str value) keepOrigin

def moveHeaderInContext (context : Fields) (fromHeader toHeader : String) (keepOrigin : Bool) :
    Fields × Option HeaderError :=
  let fromHeader := normalizeHeaderContextKey fromHeader
  let toHeader := normalizeHeaderContextKey toHeader
  if fromHeader = "" ∨ toHeader = "" then (context, some (.failed "move_header from/to is required"))
  else match copyHeaderInContext lib context fromHeader toHeader keepOrigin with
    | (context, some err) => (context, some err)
    | (context, none) =>
        if equalFold fromHeader toHeader then (context, none)
        else deleteHeaderOverrideInContext context fromHeader

/-! ## Passing headers on -/

def normalizeNames (values : List String) : List String :=
  uniq (values.filterMap fun item =>
    if normalizeHeaderContextKey item = "" then none else some (normalizeHeaderContextKey item))

def someNames (names : List String) : Except String (List String) :=
  if names = [] then .error "pass_headers value is invalid" else .ok names

def parseHeaderPassThroughNames : Json → Except String (List String)
  | .null => .error "pass_headers value is required"
  | .str raw =>
      let trimmed := trimSpace raw
      if trimmed = "" then .error "pass_headers value is required"
      else
        let isJSON := hasPrefix trimmed "[" || hasPrefix trimmed "\x7b"
        match _h : if isJSON then lib.unmarshal trimmed else none with
        | some parsed => parseHeaderPassThroughNames parsed
        | none => someNames (normalizeNames (split trimmed ","))
  | .arr raw => someNames (normalizeNames (raw.map lib.sprint))
  | .obj raw =>
      let names (key : String) : List String :=
        match _h : Assoc.get raw key with
        | some value => (parseHeaderPassThroughNames value).toOption.getD []
        | none => []
      someNames (normalizeNames (names "headers" ++ names "names" ++ names "header"))
  | _ => .error "pass_headers value must be string, array or object"
termination_by value => value.weight
decreasing_by
  · have hparsed : lib.unmarshal (trimSpace raw) = some parsed := by
      split at _h
      · exact _h
      · cases _h
    have hshort := lib.unmarshal_weight _ _ hparsed
    have htrim := length_trimSpace_le raw
    simp only [Json.weight]
    omega
  · have := Json.weight_le_fieldsWeight _h
    simp only [Json.weight]
    omega

/-! ## Keeping a field and a header in step -/

inductive SyncTarget where
  | json (key : String)
  | header (key : String)
deriving DecidableEq, Repr

def parseSyncTarget (spec : String) : Except String SyncTarget :=
  let raw := trimSpace spec
  if raw = "" then .error "sync_fields target is required"
  else match split raw ":" with
    | kind :: first :: rest =>
        let key := trimSpace (":".intercalate (first :: rest))
        if key = "" then .error ("sync_fields target key is required: " ++ raw)
        else match toLower (trimSpace kind) with
          | "json" | "body" => .ok (.json key)
          | "header" => .ok (.header key)
          | _ => .error ("sync_fields target prefix is invalid: " ++ raw)
    | _ => .ok (.json raw)

def readSyncTargetValue (data : Json) (context : Fields) : SyncTarget → Fields × Option Json
  | .json key =>
      match lib.get data (processNegativeIndex lib data key) with
      | none | some .null => (context, none)
      | some (.str s) => (context, if trimSpace s = "" then none else some (.str s))
      | some value => (context, some value)
  | .header key =>
      let (context, value) := getHeaderValueFromContext lib context key
      (context, value.map .str)

def writeSyncTargetValue (data : Json) (context : Fields) (value : Json) : SyncTarget → Except String (Json × Fields)
  | .json key => do
      let next ← lib.set data (processNegativeIndex lib data key) value
      .ok (next, context)
  | .header key =>
      match setHeaderOverrideInContext lib context key value false with
      | (_, some err) => .error err.message
      | (context, none) => .ok (data, context)

def syncFieldsBetweenTargets (data : Json) (context : Fields) (fromSpec toSpec : String) :
    Except String (Json × Fields) := do
  let fromTarget ← parseSyncTarget fromSpec
  let toTarget ← parseSyncTarget toSpec
  let (context, fromValue) := readSyncTargetValue lib data context fromTarget
  let (context, toValue) := readSyncTargetValue lib data context toTarget
  match fromValue, toValue with
  | some value, none => writeSyncTargetValue lib data context value toTarget
  | none, some value => writeSyncTargetValue lib data context value fromTarget
  | _, _ => .ok (data, context)

end HotAI.Override
