import HotAI.Lib.Lines

/-! # Channel affinity (`service/channel_affinity.go`, `pkg/cachex/namespace.go`)

The channel that served a request is remembered under a key made of rule name, model, group and a value of the request. It
is looked up by the key without its namespace and stored by the key with it. -/
namespace HotAI.Routing.Affinity
open HotAI.Lib List

structure KeySource where
  type : String
  key : String
  path : String
deriving DecidableEq

structure ChannelAffinityRule where
  name : String
  modelRegex : List String
  pathRegex : List String
  userAgentInclude : List String
  keySources : List KeySource
  valueRegex : String
  includeUsingGroup : Bool
  includeModelName : Bool
  includeRuleName : Bool
deriving DecidableEq

structure ChannelAffinitySetting where
  enabled : Bool
  switchOnSuccess : Bool
  rules : List ChannelAffinityRule

/-- `extract` is `extractChannelAffinityValue` in the request's context. -/
structure Request where
  modelName : String
  usingGroup : String
  path : String
  userAgent : String
  extract : KeySource → String

/-- The two ways in which texts are matched. -/
structure Matchers where
  matchAnyRegexCached : List String → String → Bool
  matchAnyIncludeFold : List String → String → Bool

variable (lib : Matchers)

/-- The value that the rule finds in the request, if the rule is for it. -/
def ruleValue (request : Request) (rule : ChannelAffinityRule) : Option String :=
  if lib.matchAnyRegexCached rule.modelRegex request.modelName &&
      (rule.pathRegex.isEmpty || lib.matchAnyRegexCached rule.pathRegex request.path) &&
      (rule.userAgentInclude.isEmpty || lib.matchAnyIncludeFold rule.userAgentInclude request.userAgent) then
    ((rule.keySources.map request.extract).find? (· ≠ "")).filter fun value =>
      rule.valueRegex = "" || lib.matchAnyRegexCached [rule.valueRegex] value
  else none

/-- The first rule that is for the request, with its value. -/
def ruleOf (rules : List ChannelAffinityRule) (request : Request) : Option (ChannelAffinityRule × String) :=
  rules.findSome? fun rule => (ruleValue lib request rule).map (rule, ·)

def keyParts (rule : ChannelAffinityRule) (modelName usingGroup affinityValue : String) : List String :=
  (if rule.includeRuleName ∧ rule.name ≠ "" then [rule.name] else []) ++
    (if rule.includeModelName ∧ modelName ≠ "" then [modelName] else []) ++
    (if rule.includeUsingGroup ∧ usingGroup ≠ "" then [usingGroup] else []) ++ [affinityValue]

def buildChannelAffinityCacheKeySuffix (rule : ChannelAffinityRule) (modelName usingGroup affinityValue : String) : String :=
  ":".intercalate (keyParts rule modelName usingGroup affinityValue)

/-- `channelAffinityCacheNamespace` with a colon. -/
def nsPrefix : String := "new-api:channel_affinity:v1:"

def fullKey (key : String) : String :=
  if trimSpace key = "" then ""
  else if hasPrefix (trimSpace key) nsPrefix then trimSpace key
  else nsPrefix ++ String.ofList ((trimSpace key).toList.dropWhile (· = ':'))

abbrev Cache := String → Option ℤ

def cacheGet (cache : Cache) (key : String) : Option ℤ := if fullKey key = "" then none else cache (fullKey key)

def cacheSet (cache : Cache) (key : String) (channelID : ℤ) : Cache :=
  if fullKey key = "" then cache else Function.update cache (fullKey key) (some channelID)

variable (setting : ChannelAffinitySetting)

def suffixOf (request : Request) (found : ChannelAffinityRule × String) : String :=
  buildChannelAffinityCacheKeySuffix found.1 request.modelName request.usingGroup found.2

def getPreferredChannelByAffinity (cache : Cache) (request : Request) : Option ℤ :=
  if setting.enabled then
    (ruleOf lib setting.rules request).bind fun found => cacheGet cache (suffixOf request found)
  else none

/-- A request, looked up before, was served by `channelID`; `successID` is the `channel_id` of its context. -/
structure Record where
  request : Request
  channelID : ℤ
  successID : ℤ

def Record.choice (r : Record) : ℤ := if setting.switchOnSuccess ∧ 0 < r.successID then r.successID else r.channelID

def recordChannelAffinity (cache : Cache) (r : Record) : Cache :=
  match decide (0 < r.channelID) && setting.enabled, ruleOf lib setting.rules r.request with
  | true, some found => cacheSet cache (nsPrefix ++ suffixOf r.request found) (r.choice setting)
  | _, _ => cache

/-! ## What should be remembered -/

/-- The rule that is for a request and what the rule makes of it: the model, the group and the value. -/
def affinityOf (request : Request) : Option (ChannelAffinityRule × Option String × Option String × String) :=
  (ruleOf lib setting.rules request).map fun (rule, value) =>
    (rule, if rule.includeModelName then some request.modelName else none,
      if rule.includeUsingGroup then some request.usingGroup else none, value)

/-- The last choice that was recorded for the same rule, model, group and value. -/
def lastChoice (records : List Record) (request : Request) : Option ℤ :=
  if setting.enabled ∧ (affinityOf lib setting request).isSome then
    (records.reverse.find? fun r => 0 < r.channelID ∧ affinityOf lib setting r.request = affinityOf lib setting request).map
      (Record.choice setting)
  else none

/-- The texts of which a key is made can be told apart in it. -/
structure Plain (request : Request) (rule : ChannelAffinityRule) (value : String) : Prop where
  name : rule.includeRuleName = true → rule.name ≠ ""
  model : rule.includeModelName = true → request.modelName ≠ ""
  group : rule.includeUsingGroup = true → request.usingGroup ≠ ""
  colon : ∀ part ∈ keyParts rule request.modelName request.usingGroup value, ':' ∉ part.toList ∧ part ≠ ""
  blank : trimSpace (suffixOf request (rule, value)) = suffixOf request (rule, value)
  outside : hasPrefix (suffixOf request (rule, value)) nsPrefix = false

/-- Different rules have different names in their keys. -/
def NamedApart (rules : List ChannelAffinityRule) : Prop :=
  ∀ a ∈ rules, ∀ b ∈ rules, a ≠ b → a.includeRuleName ∧ b.includeRuleName ∧ a.name ≠ b.name

def PlainRequest (request : Request) : Prop :=
  ∀ found ∈ ruleOf lib setting.rules request, Plain request found.1 found.2

variable {lib setting} {request other : Request} {rule rule' : ChannelAffinityRule} {value value' : String}

theorem head_suffix (h : Plain request rule value) :
    ∃ c rest, (suffixOf request (rule, value)).toList = c :: rest ∧ c ≠ ':' := by
  obtain ⟨first, others, hparts⟩ := exists_cons_of_ne_nil
    (show keyParts rule request.modelName request.usingGroup value ≠ [] by simp [keyParts])
  obtain ⟨hcolon, hne⟩ := h.colon first (by simp [hparts])
  obtain ⟨c, cs, hfirst⟩ := exists_cons_of_ne_nil (show first.toList ≠ [] by simpa using hne)
  have hhead : (suffixOf request (rule, value)).toList.head? = some c := by
    rw [suffixOf, buildChannelAffinityCacheKeySuffix, String.toList_intercalate, hparts, map_cons]
    exact (head?_intercalate ':' _ _).trans (by simp [hfirst])
  obtain ⟨rest, hrest⟩ := head?_eq_some_iff.mp hhead
  exact ⟨c, rest, hrest, fun hc => by simp [hfirst, hc] at hcolon⟩

/-- Both keys lead to the same entry. -/
theorem fullKey_suffix (h : Plain request rule value) :
    fullKey (suffixOf request (rule, value)) = nsPrefix ++ suffixOf request (rule, value) ∧
      fullKey (nsPrefix ++ suffixOf request (rule, value)) = nsPrefix ++ suffixOf request (rule, value) := by
  obtain ⟨c, rest, hlist, hc⟩ := head_suffix h
  have hblank := h.blank
  have houtside := h.outside
  generalize suffixOf request (rule, value) = suffix at *
  have hne : suffix ≠ "" := fun hempty => by simp [hempty] at hlist
  have hends := (trimEnds_eq_self_iff isSpace suffix.toList).mp (by rw [← String.toList_ofList (l := trimEnds ..)]; exact congrArg _ hblank)
  have htrim : trimSpace (nsPrefix ++ suffix) = nsPrefix ++ suffix := by
    refine (congrArg String.ofList ((trimEnds_eq_self_iff isSpace _).mpr ⟨fun a ha => ?_, fun a ha => ?_⟩)).trans String.ofList_toList
    · obtain rfl : 'n' = a := by simpa [nsPrefix] using ha
      rfl
    · rw [String.toList_append, getLast?_append_of_ne_nil _ (by simp [hlist])] at ha
      exact hends.2 a ha
  constructor
  · rw [fullKey, hblank, if_neg hne, if_neg (by simp [houtside]), hlist, dropWhile_cons_of_neg (by simpa using hc), ← hlist,
      String.ofList_toList]
  · rw [fullKey, htrim, if_neg (by simp [nsPrefix]), if_pos (by simp [hasPrefix])]

theorem keyParts_inj (hrules : NamedApart setting.rules) (hmem : rule ∈ setting.rules) (hmem' : rule' ∈ setting.rules)
    (h : Plain request rule value) (h' : Plain other rule' value')
    (heq : suffixOf request (rule, value) = suffixOf other (rule', value')) :
    rule = rule' ∧ (rule.includeModelName = true → request.modelName = other.modelName) ∧
      (rule.includeUsingGroup = true → request.usingGroup = other.usingGroup) ∧ value = value' := by
  have hparts : ∀ {request : Request} {rule : ChannelAffinityRule} {value : String}, Plain request rule value →
      split (suffixOf request (rule, value)) ":" = keyParts rule request.modelName request.usingGroup value :=
    fun h => split_intercalate (x := ':') rfl (by simp [keyParts]) fun part hpart => (h.colon part hpart).1
  have hlist : keyParts rule request.modelName request.usingGroup value =
      keyParts rule' other.modelName other.usingGroup value' := by rw [← hparts h, ← hparts h', heq]
  have hrule : rule = rule' := by
    by_contra hne
    obtain ⟨hname, hname', hdiff⟩ := hrules rule hmem rule' hmem' hne
    have hhead := congrArg head? hlist
    simp [keyParts, hname, hname', h.name hname, h'.name hname', hdiff] at hhead
  subst hrule
  have hmodel := h.model
  have hmodel' := h'.model
  have hgroup := h.group
  have hgroup' := h'.group
  cases hn : rule.includeRuleName <;> cases hm : rule.includeModelName <;> cases hg : rule.includeUsingGroup <;>
    simp_all [keyParts]

theorem ruleOf_mem {found : ChannelAffinityRule × String} (h : ruleOf lib setting.rules request = some found) :
    found.1 ∈ setting.rules := by
  obtain ⟨rule, hmem, hfound⟩ := exists_of_findSome?_eq_some h
  obtain ⟨value, -, rfl⟩ := Option.map_eq_some_iff.mp hfound
  exact hmem

theorem suffix_eq_iff (hrules : NamedApart setting.rules) {found found' : ChannelAffinityRule × String}
    (hfound : ruleOf lib setting.rules request = some found) (hfound' : ruleOf lib setting.rules other = some found')
    (h : PlainRequest lib setting request) (h' : PlainRequest lib setting other) :
    suffixOf request found = suffixOf other found' ↔ affinityOf lib setting request = affinityOf lib setting other := by
  obtain ⟨rule, value⟩ := found
  obtain ⟨rule', value'⟩ := found'
  rw [affinityOf, affinityOf, hfound, hfound']
  constructor
  · intro heq
    obtain ⟨rfl, hmodel, hgroup, rfl⟩ :=
      keyParts_inj hrules (ruleOf_mem hfound) (ruleOf_mem hfound') (h _ hfound) (h' _ hfound') heq
    cases hm : rule.includeModelName <;> cases hg : rule.includeUsingGroup <;> simp_all
  · intro heq
    simp only [Option.map_some, Option.some.injEq, Prod.mk.injEq] at heq
    obtain ⟨rfl, hmodel, hgroup, rfl⟩ := heq
    cases hm : rule.includeModelName <;> cases hg : rule.includeUsingGroup <;>
      simp_all [suffixOf, buildChannelAffinityCacheKeySuffix, keyParts]

theorem record_entry (hrules : NamedApart setting.rules) (henabled : setting.enabled = true) {cache : Cache} {r : Record}
    {found : ChannelAffinityRule × String} (hfound : ruleOf lib setting.rules request = some found)
    (h : PlainRequest lib setting request) (hr : PlainRequest lib setting r.request) :
    recordChannelAffinity lib setting cache r (nsPrefix ++ suffixOf request found) =
      if 0 < r.channelID ∧ affinityOf lib setting r.request = affinityOf lib setting request then some (r.choice setting)
      else cache (nsPrefix ++ suffixOf request found) := by
  unfold recordChannelAffinity
  by_cases hpos : 0 < r.channelID
  · cases hother : ruleOf lib setting.rules r.request with
    | none => simp [affinityOf, hother, hfound]
    | some found' =>
      have hkey := (fullKey_suffix (hr _ hother)).2
      have hsame := suffix_eq_iff hrules hother hfound hr h
      have hne : nsPrefix ++ suffixOf r.request found' ≠ "" := by simp [nsPrefix]
      simp only [hpos, henabled, decide_true, Bool.and_true, cacheSet, hkey, if_neg hne, Function.update_apply, true_and,
        ← hsame, String.append_right_inj, eq_comm (a := suffixOf request found)]
  · simp [hpos]

/-- A request gets the channel that was last chosen for its rule, model, group and value, and no other. -/
theorem affinity_remembers {records : List Record} (hrules : NamedApart setting.rules)
    (hrecords : ∀ r ∈ records, PlainRequest lib setting r.request) (h : PlainRequest lib setting request) :
    getPreferredChannelByAffinity lib setting (records.foldl (recordChannelAffinity lib setting) fun _ => none) request =
      lastChoice lib setting records request := by
  unfold getPreferredChannelByAffinity lastChoice
  cases henabled : setting.enabled with
  | false => simp
  | true =>
    cases hfound : ruleOf lib setting.rules request with
    | none => simp [affinityOf, hfound]
    | some found =>
      have hget : ∀ cache, cacheGet cache (suffixOf request found) = cache (nsPrefix ++ suffixOf request found) := by
        intro cache
        rw [cacheGet, (fullKey_suffix (h _ hfound)).1, if_neg (by simp [nsPrefix])]
      have hsome : (affinityOf lib setting request).isSome = true := by simp [affinityOf, hfound]
      rw [if_pos rfl, Option.bind_some, hget, if_pos ⟨rfl, hsome⟩]
      induction records using reverseRecOn with
      | nil => rfl
      | append_singleton records r ih =>
        obtain ⟨hold, hr⟩ := forall_mem_append.mp hrecords
        rw [foldl_concat, record_entry hrules henabled hfound h (hr r (mem_singleton_self r)), ih hold,
          reverse_append, reverse_singleton, singleton_append, find?_cons]
        split_ifs with hsame <;> simp [hsame]

def sampleMatchers : Matchers := ⟨fun _ _ => true, fun _ _ => true⟩

def userRule : ChannelAffinityRule := ⟨"", [], [], [], [⟨"context_string", "user", ""⟩], "", true, true, false⟩

def sampleSetting : ChannelAffinitySetting := ⟨true, false, [userRule]⟩

def requestOf (model group value : String) : Request := ⟨model, group, "", "", fun _ => value⟩

theorem plain_sample {value : String} (h : value ∈ ["ann", "bob"]) :
    PlainRequest sampleMatchers sampleSetting (requestOf "m" "g" value) := by
  fin_cases h <;> rintro found ⟨⟩ <;>
    exact ⟨by decide, by decide, by decide, by decide +kernel, by decide +kernel, by decide +kernel⟩

theorem affinity_of_two_users : getPreferredChannelByAffinity sampleMatchers sampleSetting
      ([⟨requestOf "m" "g" "ann", 1, 0⟩, ⟨requestOf "m" "g" "bob", 2, 0⟩].foldl
        (recordChannelAffinity sampleMatchers sampleSetting) fun _ => none) (requestOf "m" "g" "ann") = some 1 :=
  (affinity_remembers (fun a ha b hb hne => absurd ((mem_singleton.mp ha).trans (mem_singleton.mp hb).symm) hne)
    (fun r hr => by fin_cases hr <;> exact plain_sample (by simp)) (plain_sample (by simp))).trans (by decide +kernel)

/-- The model `m:g` without a group and the model `m` in the group `g` have one key. -/
theorem affinity_confused : getPreferredChannelByAffinity sampleMatchers sampleSetting
      ([⟨requestOf "m:g" "" "ann", 1, 0⟩].foldl (recordChannelAffinity sampleMatchers sampleSetting) fun _ => none)
        (requestOf "m" "g" "ann") = some 1 ∧
    lastChoice sampleMatchers sampleSetting [⟨requestOf "m:g" "" "ann", 1, 0⟩] (requestOf "m" "g" "ann") = none := by
  decide +kernel

end HotAI.Routing.Affinity
