import HotAI.Lib.GoStrings
import HotAI.Lib.Walk

/-! # The model that an attempt asks for (`relay/helper/model_mapped.go`)

Each attempt installs its channel in the shared `RelayInfo` (`InitChannelMeta`) and follows the channel's table of model
names (`ModelMappedHelper`). Two handlers write a new name into the record: the one for `/v1/responses/compact` and
`GeminiHelper`. -/
namespace HotAI.ModelMapping
open HotAI.Lib List Option

/-- `map[string]string` of `json.Unmarshal`; the text `""` is no table, the same as the empty one. -/
abbrev ModelMap := List (String × String)

inductive RelayMode where
  | responsesCompact
  /-- `isNoThinkingRequest` of the request. -/
  | gemini (isNoThinkingRequest : Bool)
  | other
deriving DecidableEq

structure Settings where
  thinkingAdapterEnabled : Bool
  hasModelBillingConfig : String → Bool

structure RelayInfo where
  originModelName : String
  isModelMapped : Bool
  upstreamModelName : String
deriving DecidableEq

def compactModelSuffix : String := "-openai-compact"

def withCompactModelSuffix (modelName : String) : String :=
  if hasSuffix modelName compactModelSuffix then modelName else modelName ++ compactModelSuffix

def RelayMode.mappingModelName (mode : RelayMode) (originModelName : String) : String :=
  if mode = .responsesCompact then trimSuffix originModelName compactModelSuffix else originModelName

/-! ## One attempt -/

/-- An entry with an empty name counts as none. -/
def ModelMap.next (modelMap : ModelMap) (currentModel : String) : Option String :=
  (modelMap.lookup currentModel).filter (· ≠ "")

inductive Outcome where
  /-- The early return for a model that maps to itself. -/
  | unmapped
  | mapped (currentModel : String) (isModelMapped : Bool)
  | cycle
deriving DecidableEq

/-- The loop of `ModelMappedHelper`; `none` if it needs more rounds than `fuel`. -/
def follow (modelMap : ModelMap) (originModelName : String) : ℕ → String → List String → Bool → Option Outcome
  | 0, _, _, _ => none
  | fuel + 1, currentModel, visitedModels, isModelMapped => match modelMap.next currentModel with
      | none => some (.mapped currentModel isModelMapped)
      | some mappedModel =>
          if mappedModel ∈ visitedModels then
            if mappedModel = currentModel then
              some (if currentModel = originModelName then .unmapped else .mapped currentModel true)
            else some .cycle
          else follow modelMap originModelName fuel mappedModel (mappedModel :: visitedModels) true

abbrev Helped := Option String × RelayInfo

def finish (mode : RelayMode) (info : RelayInfo) : Outcome → Helped
  | .unmapped => (none, { info with isModelMapped := false })
  | .cycle => (some "model_mapping_contains_cycle", { info with isModelMapped := true })
  | .mapped currentModel isModelMapped =>
      let info := { info with
        isModelMapped := isModelMapped
        upstreamModelName := if isModelMapped then currentModel else info.upstreamModelName }
      if mode = .responsesCompact then
        let finalUpstreamModelName := if isModelMapped ∧ info.upstreamModelName ≠ "" then info.upstreamModelName
          else mode.mappingModelName info.originModelName
        (none, { info with
          upstreamModelName := finalUpstreamModelName
          originModelName := withCompactModelSuffix finalUpstreamModelName })
      else (none, info)

/-- Behind `InitChannelMeta`, which resets `IsModelMapped`. -/
def modelMappedHelper (mode : RelayMode) (info : RelayInfo) (modelMap : ModelMap) : Option Helped :=
  (follow modelMap info.originModelName (modelMap.length + 1) (mode.mappingModelName info.originModelName)
    [mode.mappingModelName info.originModelName] info.isModelMapped).map (finish mode info)

/-- What `InitChannelMeta` does to the names: `SetupContextForSelectedChannel` has written the shared record's name to the
context, and it is read from there. -/
def initModelNames (info : RelayInfo) : RelayInfo := ⟨info.originModelName, false, info.originModelName⟩

/-- The name with a price of its own to which `GeminiHelper` switches a request without thinking. -/
def noThinkingModelName (s : Settings) (mode : RelayMode) (originModelName : String) : Option String :=
  if s.thinkingAdapterEnabled ∧ mode = .gemini true ∧ ¬contains originModelName "-nothinking" ∧
      s.hasModelBillingConfig (originModelName ++ "-nothinking") then some (originModelName ++ "-nothinking")
  else none

/-- The error of `ModelMappedHelper`, or the upstream model with which the handler goes on. -/
abbrev Upstream := Except String String

def attempt (s : Settings) (mode : RelayMode) (info : RelayInfo) (modelMap : ModelMap) : Option (Upstream × RelayInfo) :=
  (modelMappedHelper mode (initModelNames info) modelMap).map fun
    | (some err, info) => (.error err, info)
    | (none, info) =>
        -- both names are overwritten, whatever the table says
        let info := match noThinkingModelName s mode info.originModelName with
          | some name => { info with originModelName := name, upstreamModelName := name }
          | none => info
        (.ok info.upstreamModelName, info)

def attempts (s : Settings) (mode : RelayMode) (info : RelayInfo) : List ModelMap → Option (List Upstream)
  | [] => some []
  | modelMap :: rest =>
      (attempt s mode info modelMap).bind fun (upstream, info) => (attempts s mode info rest).map (upstream :: ·)

/-- `Distribute` puts the suffix on the name of the client. -/
def distributed (mode : RelayMode) (clientModel : String) : RelayInfo :=
  let name := if mode = .responsesCompact ∧ clientModel ≠ "" then withCompactModelSuffix clientModel else clientModel
  ⟨name, false, ""⟩

/-! ## What an attempt should ask for -/

variable {modelMap : ModelMap} {visitedModels : List String} {currentModel : String} {model : String}

theorem mem_keys_of_next {a b : String} (h : modelMap.next a = some b) : a ∈ modelMap.map Prod.fst := by
  obtain ⟨hlookup, -⟩ := filter_eq_some_iff.mp h
  by_contra hmem
  have hnone : modelMap.lookup a = none := by
    rw [lookup_eq_none_iff]
    intro entry hentry
    simpa using fun ha : a = entry.1 => hmem (ha ▸ mem_map_of_mem hentry)
  rw [hnone] at hlookup
  cases hlookup

/-- What the loop knows when it has come to `currentModel`. -/
structure Walked (modelMap : ModelMap) (model currentModel : String) (visitedModels : List String) : Prop where
  reached : Reaches modelMap.next model currentModel
  visited : ∀ v ∈ visitedModels, Reaches modelMap.next v currentModel
  current : currentModel ∈ visitedModels
  keys : ∀ v ∈ visitedModels, v ≠ currentModel → v ∈ modelMap.map Prod.fst
  nodup : visitedModels.Nodup
  short : visitedModels.length ≤ modelMap.length + 1

theorem Walked.step {model currentModel mappedModel : String}
    (h : Walked modelMap model currentModel visitedModels) (hnext : modelMap.next currentModel = some mappedModel)
    (hnew : mappedModel ∉ visitedModels) : Walked modelMap model mappedModel (mappedModel :: visitedModels) := by
  have hkeys : visitedModels ⊆ modelMap.map Prod.fst := by
    intro v hv
    by_cases hcurrent : v = currentModel
    · exact hcurrent ▸ mem_keys_of_next hnext
    · exact h.keys v hv hcurrent
  refine ⟨h.reached.tail hnext, fun v hv => ?_, mem_cons_self, fun v hv hne => ?_,
    nodup_cons.mpr ⟨hnew, h.nodup⟩, ?_⟩
  · rcases mem_cons.mp hv with rfl | hv
    · exact .refl
    · exact (h.visited v hv).tail hnext
  · rcases mem_cons.mp hv with rfl | hv
    · exact absurd rfl hne
    · exact hkeys hv
  · have hle := (h.nodup.subperm hkeys).length_le
    rw [length_map] at hle
    exact Nat.succ_le_succ hle

/-- The name in the shared record behind an attempt whose chain ends in `last`. -/
def nameAfter (s : Settings) (mode : RelayMode) (originModelName last : String) : String :=
  if mode = .responsesCompact then withCompactModelSuffix last
  else (noThinkingModelName s mode originModelName).getD originModelName

/-- An attempt with the table leaves the chain of the next one at its start. -/
def Keeps (s : Settings) (mode : RelayMode) (originModelName : String) (modelMap : ModelMap) : Prop :=
  ∀ last, EndsAt modelMap.next (mode.mappingModelName originModelName) last →
    mode.mappingModelName (nameAfter s mode originModelName last) = mode.mappingModelName originModelName

end HotAI.ModelMapping
