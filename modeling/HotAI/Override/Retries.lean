import HotAI.Override.RelayInfo

/-! # Header overrides over the attempts of a request

A parameter override that is applied always leaves a runtime header map in the `RelayInfo`, and from then on every channel
gets that map instead of its own. -/
namespace HotAI.Override
open HotAI.Lib

/-! ## The context keeps a header map -/

variable {context : Fields}

variable {lib : Libraries}

variable {context' : Fields} {data data' : Json}

variable {op : ParamOperation}

def appliesOverride (lib : Libraries) (info : RelayInfo) (a : Attempt) : Bool :=
  !a.channel.paramOverride.isEmpty &&
    (applyParamOverrideWithRelayInfo lib a.jsonData (a.install info)).1.isOk

variable {info : RelayInfo} (as : List Attempt)

def Quiet (lib : Libraries) (info : RelayInfo) (as : List Attempt) : Prop :=
  Along (step lib) (fun info a => appliesOverride lib info a = false) info as

def sampleInfo : RelayInfo where
  originModelName := "gpt"
  requestURLPath := "/v1/chat/completions"
  requestHeaders := []
  isChannelTest := false
  retryIndex := 0
  lastError := none
  runtimeHeadersOverride := []
  useRuntimeHeadersOverride := false
  channelMeta := none

def sampleAttempt (paramOverride : Fields) (header value : String) : Attempt where
  channel := ⟨paramOverride, [(header, .str value)], "gpt", "key"⟩
  jsonData := .obj []
  retryIndex := 0
  answer := some ⟨⟨"upstream error", 500, "bad_response_status_code", false⟩, "openai_error"⟩

end HotAI.Override
