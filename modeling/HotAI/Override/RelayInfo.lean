import HotAI.Override.Apply
import HotAI.Relay.Attempt

/-! # The headers of an attempt

One `RelayInfo` is shared by all attempts. An attempt installs its channel (`InitChannelMeta`), applies the channel's
parameter override (`ApplyParamOverrideWithRelayInfo`) and sends the headers that `processHeaderOverride` makes. -/
namespace HotAI.Override
open HotAI.Lib

/-- The fields of `ChannelMeta` that the override code reads. -/
structure ChannelMeta where
  paramOverride : Fields
  headersOverride : Fields
  upstreamModelName : String
  apiKey : String

structure LastError extends Relay.NewAPIError where
  errorType : String
deriving DecidableEq, Repr

structure RelayInfo where
  originModelName : String
  requestURLPath : String
  requestHeaders : List (String × String)
  isChannelTest : Bool
  retryIndex : ℕ
  lastError : Option LastError
  runtimeHeadersOverride : Fields
  useRuntimeHeadersOverride : Bool
  channelMeta : Option ChannelMeta

variable (lib : Libraries)

/-! ## The context -/

def getParamOverrideMap (info : RelayInfo) : Fields :=
  info.channelMeta.elim [] ChannelMeta.paramOverride

def getHeaderOverrideMap (info : RelayInfo) : Fields :=
  info.channelMeta.elim [] ChannelMeta.headersOverride

def getEffectiveHeaderOverride (info : RelayInfo) : Fields :=
  if info.useRuntimeHeadersOverride then sanitizeHeaderOverrideMap lib info.runtimeHeadersOverride
  else sanitizeHeaderOverrideMap lib (getHeaderOverrideMap info)

def buildRequestHeadersContext (headers : List (String × String)) : Fields :=
  headers.foldl (fun target item =>
    let normalized := normalizeHeaderContextKey item.1
    let value := trimSpace item.2
    if normalized = "" ∨ value = "" then target else Assoc.set target normalized (.str value)) []

def modelContext (info : RelayInfo) : Fields :=
  let upstream := info.channelMeta.elim "" ChannelMeta.upstreamModelName
  let ctx : Fields := if upstream = "" then []
    else [("model", .str upstream), ("upstream_model", .str upstream)]
  if info.originModelName = "" then ctx
  else if upstream = "" then
    ctx ++ [("original_model", .str info.originModelName), ("model", .str info.originModelName)]
  else ctx ++ [("original_model", .str info.originModelName)]

def lastErrorContext (err : LastError) : Fields :=
  [("last_error", .obj [("status_code", .num err.statusCode), ("message", .str err.message),
      ("code", .str err.errorCode), ("error_code", .str err.errorCode), ("type", .str err.errorType),
      ("error_type", .str err.errorType), ("skip_retry", .bool err.skipRetry)]),
    ("last_error_status_code", .num err.statusCode), ("last_error_message", .str err.message),
    ("last_error_code", .str err.errorCode), ("last_error_type", .str err.errorType)]

def buildParamOverrideContext (info : RelayInfo) : Fields :=
  let retryIndex : Json := .num info.retryIndex
  let isRetry : Json := .bool (0 < info.retryIndex)
  modelContext info ++
    (if info.requestURLPath = "" then [] else [("request_path", .str info.requestURLPath)]) ++
    [(paramOverrideContextRequestHeaders, .obj (buildRequestHeadersContext info.requestHeaders)),
      (paramOverrideContextHeaderOverride,
        .obj (sanitizeHeaderOverrideMap lib (getEffectiveHeaderOverride lib info))),
      ("retry_index", retryIndex), ("is_retry", isRetry),
      ("retry", .obj [("index", retryIndex), ("is_retry", isRetry)])] ++
    info.lastError.elim [] lastErrorContext ++ [("is_channel_test", .bool info.isChannelTest)]

def syncRuntimeHeaderOverrideFromContext (info : RelayInfo) (context : Fields) : RelayInfo :=
  match Assoc.get context paramOverrideContextHeaderOverride with
  | some (.obj rawMap) =>
      { info with
        runtimeHeadersOverride := sanitizeHeaderOverrideMap lib rawMap
        useRuntimeHeadersOverride := true }
  | _ => info

def applyParamOverrideWithRelayInfo (jsonData : Json) (info : RelayInfo) : Except OverrideError Json × RelayInfo :=
  let paramOverride := getParamOverrideMap info
  if paramOverride = [] then (.ok jsonData, info)
  else match applyParamOverride lib jsonData paramOverride (buildParamOverrideContext lib info) with
    | .error err => (.error err, info)
    | .ok (result, context) => (.ok result, syncRuntimeHeaderOverrideFromContext lib info context)

/-! ## The headers sent -/

def passthroughSkipHeaderNamesLower : List String :=
  ["connection", "keep-alive", "proxy-authenticate", "proxy-authorization", "te", "trailer",
    "transfer-encoding", "upgrade", "cookie", "host", "content-length", "accept-encoding",
    "authorization", "x-api-key", "x-goog-api-key", "sec-websocket-key", "sec-websocket-version",
    "sec-websocket-extensions"]

def shouldSkipPassthroughHeader (name : String) : Bool :=
  trimSpace name = "" || toLower (trimSpace name) ∈ passthroughSkipHeaderNamesLower

def isHeaderPassthroughRuleKey (key : String) : Bool :=
  let lower := toLower (trimSpace key)
  lower = "*" || hasPrefix lower "re:" || hasPrefix lower "regex:"

/-- `Header.Get` of the incoming request. -/
def requestHeader (headers : List (String × String)) (name : String) : String :=
  ((headers.find? fun item => equalFold item.1 name).map Prod.snd).getD ""

def clientHeaderPlaceholderPrefix : String := "\x7bclient_header:"

/-- `none` leaves the header out. -/
def applyHeaderOverridePlaceholders (headers : List (String × String)) (template apiKey : String) :
    Except String (Option String) :=
  let trimmed := trimSpace template
  if hasPrefix trimmed clientHeaderPlaceholderPrefix then
    match split (trimPrefix trimmed clientHeaderPlaceholderPrefix) "\x7d" with
    | [name, ""] =>
        if trimSpace name = "" then
          .error ("client_header placeholder name is empty: " ++ template.quote)
        else
          let value := requestHeader headers (trimSpace name)
          .ok (if trimSpace value = "" then none else some value)
    | _ => .error ("client_header placeholder must be the full value: " ++ template.quote)
  else
    let value := replaceAll template "\x7bapi_key\x7d" apiKey
    .ok (if trimSpace value = "" then none else some value)

def passthroughRule (key : String) : Option String :=
  let key := trimSpace (toLower key)
  if hasPrefix key "re:" then some (trimSpace (trimPrefix key "re:"))
  else if hasPrefix key "regex:" then some (trimSpace (trimPrefix key "regex:"))
  else none

def passthroughRegex (source : Fields) : Except String (List (String → Bool)) :=
  source.filterMap (fun item => (passthroughRule item.1).map (item.1, ·)) |>.mapM fun rule =>
    if rule.2 = "" then .error ("header passthrough regex pattern is empty: " ++ rule.1.quote)
    else lib.regexMatch rule.2

def passthroughHeaders (headers : List (String × String)) (allowed : String → Bool) : List (String × String) :=
  headers.foldl (fun target item =>
    if shouldSkipPassthroughHeader item.1 || !allowed item.1 || decide (trimSpace item.2 = "") then target
    else Assoc.set target (toLower (trimSpace item.1)) (trimSpace item.2)) []

def overrideHeader (isChannelTest : Bool) (headers : List (String × String)) (apiKey : String)
    (target : List (String × String)) (item : String × Json) : Except String (List (String × String)) :=
  let key := trimSpace (toLower item.1)
  if isHeaderPassthroughRuleKey item.1 ∨ key = "" then .ok target
  else match item.2 with
    | .str text =>
        if isChannelTest && hasPrefix (trimSpace text) clientHeaderPlaceholderPrefix then .ok target
        else do
          let value ← applyHeaderOverridePlaceholders headers text apiKey
          .ok (value.elim target (Assoc.set target key))
    | _ => .error ""

def processHeaderOverride (info : RelayInfo) : Except String (List (String × String)) := do
  let source := getEffectiveHeaderOverride lib info
  let apiKey := info.channelMeta.elim "" ChannelMeta.apiKey
  let passAll := !info.isChannelTest && source.any fun item => trimSpace (toLower item.1) = "*"
  let regexes ← if info.isChannelTest then .ok [] else passthroughRegex lib source
  let passed := if passAll || !regexes.isEmpty
    then passthroughHeaders info.requestHeaders fun name => passAll || regexes.any (· name) else []
  source.foldlM (overrideHeader info.isChannelTest info.requestHeaders apiKey) passed

/-! ## Attempts -/

/-- What an attempt brings: channel, converted body, retry index, and how the upstream answers. -/
structure Attempt where
  channel : ChannelMeta
  jsonData : Json
  retryIndex : ℕ
  answer : Option LastError

/-- Without the model names, which `Relay.ModelMapping` has. -/
def initChannelMeta (info : RelayInfo) (channel : ChannelMeta) : RelayInfo :=
  { info with channelMeta := some channel }

/-- `NewAPIErrorFromParamOverride` for an error that `return_error` asked for. -/
def returnedError (err : ParamOverrideReturnError) : LastError where
  message := textOr (some err.message) "request blocked by param override"
  statusCode := if err.statusCode < 100 ∨ 511 < err.statusCode then 400 else err.statusCode
  errorCode := if trimSpace err.code = "" then "invalid_request" else err.code
  skipRetry := err.skipRetry
  errorType := "openai_error"

def newAPIErrorFromParamOverride : OverrideError → LastError
  | .returned err => returnedError err
  | .failed message => ⟨⟨message, 500, "channel:param_override_invalid", true⟩, "new_api_error"⟩

def headerOverrideInvalid (message : String) : LastError :=
  ⟨⟨message, 500, "channel:header_override_invalid", false⟩, "new_api_error"⟩

def Attempt.install (a : Attempt) (info : RelayInfo) : RelayInfo :=
  initChannelMeta { info with retryIndex := a.retryIndex } a.channel

/-- The headers that the attempt sends on top of the adaptor's, and the `RelayInfo` it leaves. -/
def prepare (info : RelayInfo) (a : Attempt) : Except LastError (List (String × String)) × RelayInfo :=
  match applyParamOverrideWithRelayInfo lib a.jsonData (a.install info) with
  | (.error err, info) => (.error (newAPIErrorFromParamOverride err), info)
  | (.ok _, info) => ((processHeaderOverride lib info).mapError headerOverrideInvalid, info)

def step (info : RelayInfo) (a : Attempt) : RelayInfo :=
  match prepare lib info a with
  | (.error err, info) => { info with lastError := some err }
  | (.ok _, info) => { info with lastError := a.answer }

end HotAI.Override
