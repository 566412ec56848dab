import HotAI.Lib.GoStrings

/-! # Protection against requests to inner hosts (`common/ssrf_protection.go`)

`ValidateURL` decides on a host by address if `net.ParseIP` reads it as one, and by name otherwise. Two spellings of a host
are equivalent if they say the same address or the same name. -/
namespace HotAI.Ssrf
open HotAI.Lib Option

/-! ## Addresses -/

/-- The sixteen bytes of `net.IP`, an IPv4 address in its mapped form. -/
abbrev IP := BitVec 128

def to4 (ip : IP) : Option ℕ := if ip.toNat / 2 ^ 32 = 0xffff then some (ip.toNat % 2 ^ 32) else none

def ipv4 (a b c d : ℕ) : ℕ := ((a * 256 + b) * 256 + c) * 256 + d

/-- The first `ones` of `width` bits are those of the network. -/
def inNet (width number ones address : ℕ) : Bool := address / 2 ^ (width - ones) = number / 2 ^ (width - ones)

def privateIPv4Nets : List (ℕ × ℕ) :=
  [(ipv4 0 0 0 0, 8), (ipv4 10 0 0 0, 8), (ipv4 100 64 0 0, 10), (ipv4 127 0 0 0, 8), (ipv4 169 254 0 0, 16), (ipv4 172 16 0 0, 12),
    (ipv4 192 0 0 0, 24), (ipv4 192 0 2 0, 24), (ipv4 192 168 0 0, 16), (ipv4 198 18 0 0, 15), (ipv4 198 51 100 0, 24),
    (ipv4 203 0 113 0, 24), (ipv4 224 0 0 0, 4), (ipv4 240 0 0 0, 4), (ipv4 255 255 255 255, 32)]

def privateIPv6Nets : List (ℕ × ℕ) :=
  [(0, 128), (1, 128), (0xffff * 2 ^ 32, 96), (0x64ff9b * 2 ^ 96, 96), (0x100 * 2 ^ 112, 64), (0x2001 * 2 ^ 112, 23),
    (0x20010db8 * 2 ^ 96, 32), (0xfc00 * 2 ^ 112, 7), (0xfe80 * 2 ^ 112, 10), (0xff00 * 2 ^ 112, 8)]

def isUnspecified (ip : IP) : Bool := to4 ip = some 0 || ip.toNat = 0

def isLoopback (ip : IP) : Bool := match to4 ip with
  | some v4 => inNet 32 (ipv4 127 0 0 0) 8 v4
  | none => ip.toNat = 1

def isLinkLocalUnicast (ip : IP) : Bool := match to4 ip with
  | some v4 => inNet 32 (ipv4 169 254 0 0) 16 v4
  | none => inNet 128 (0xfe80 * 2 ^ 112) 10 ip.toNat

def multicastOf (scope : ℕ) (ip : IP) : Bool := ip.toNat / 2 ^ 120 = 0xff && ip.toNat / 2 ^ 112 % 16 = scope

def isLinkLocalMulticast (ip : IP) : Bool := match to4 ip with
  | some v4 => inNet 32 (ipv4 224 0 0 0) 24 v4
  | none => multicastOf 2 ip

def isInterfaceLocalMulticast (ip : IP) : Bool := multicastOf 1 ip

def isPrivate (ip : IP) : Bool := match to4 ip with
  | some v4 => inNet 32 (ipv4 10 0 0 0) 8 v4 || inNet 32 (ipv4 172 16 0 0) 12 v4 || inNet 32 (ipv4 192 168 0 0) 16 v4
  | none => inNet 128 (0xfc00 * 2 ^ 112) 7 ip.toNat

def isPrivateIP (ip : IP) : Bool :=
  if isUnspecified ip then true
  else if isLoopback ip || isLinkLocalUnicast ip || isLinkLocalMulticast ip then true
  else if isInterfaceLocalMulticast ip then true
  else match to4 ip with
    | some v4 => privateIPv4Nets.any fun net => inNet 32 net.1 net.2 v4
    | none => if privateIPv6Nets.any fun net => inNet 128 net.1 net.2 ip.toNat then true else isPrivate ip

/-! ## The checks -/

structure ParsedURL where
  scheme : String
  host : String
  hostname : String

/-- The functions of `net`, `net/url`, `strconv` and `strings`. -/
structure Net where
  parse : String → Except String ParsedURL
  splitHostPort : String → Option (String × String)
  atoi : String → Option ℤ
  parseIP : String → Option IP
  /-- `Contains` of the network. -/
  parseCIDR : String → Option (IP → Bool)
  /-- The answer of the DNS for a name in lower case without the dot at its end. -/
  resolve : String → Except String (List IP)
  /-- `ip.String()` -/
  text : IP → String
  toLower : String → String
  /-- `ParseIP` does not accept a zone. -/
  parseIP_zone {s : String} : (parseIP s).isSome = true → '%' ∉ s.toList

structure SSRFProtection where
  allowPrivateIp : Bool
  domainFilterMode : Bool
  domainList : List String
  ipFilterMode : Bool
  ipList : List String
  allowedPorts : List ℤ
  applyIPFilterForDomain : Bool

variable (net : Net) (p : SSRFProtection)

def SSRFProtection.isAllowedPort (port : ℤ) : Bool := p.allowedPorts = [] || p.allowedPorts.contains port

def listsDomain (domain item : String) : Bool :=
  let item := net.toLower (trimSpace item)
  if item = "" then false
  else domain = item || (hasPrefix item "*." &&
    (hasSuffix domain ("." ++ trimPrefix item "*.") || domain = trimPrefix item "*."))

def isDomainListed (domain : String) (list : List String) : Bool := list.any (listsDomain net (net.toLower domain))

def SSRFProtection.isDomainAllowed (domain : String) : Bool :=
  if p.domainFilterMode then isDomainListed net domain p.domainList else !isDomainListed net domain p.domainList

def isIpInCIDRList (ip : IP) (cidrList : List String) : Bool := cidrList.any fun cidr => match net.parseCIDR cidr with
  | some contains => contains ip
  | none => net.parseIP cidr = some ip

def SSRFProtection.isIPAccessAllowed (ip : IP) : Bool :=
  if isPrivateIP ip && !p.allowPrivateIp then false
  else if p.ipFilterMode then isIpInCIDRList net ip p.ipList else !isIpInCIDRList net ip p.ipList

def dropDot (name : String) : String := trimSuffix name "."

def lookupIP (host : String) : Except String (List IP) := net.resolve (dropDot (net.toLower host))

/-- The message for an address that is not allowed; `of` names where it comes from. -/
def SSRFProtection.refusal (forbidden : Bool) (of : String) (ip : IP) : String :=
  (if forbidden then "private IP address not allowed: " else if p.ipFilterMode then "ip not in whitelist: " else "ip in blacklist: ")
    ++ of ++ net.text ip

/-- `ValidateURL` from the host on: the error, if there is one. -/
def SSRFProtection.validateHost (host : String) : Option String := match net.parseIP host with
  | some ip => if p.isIPAccessAllowed net ip then none else some (p.refusal net (isPrivateIP ip) "" ip)
  | none =>
      if !p.isDomainAllowed net host then
        some ((if p.domainFilterMode then "domain not in whitelist: " else "domain in blacklist: ") ++ host)
      else if !p.applyIPFilterForDomain then none
      else match lookupIP net host with
        | .error err => some ("DNS resolution failed for " ++ host ++ ": " ++ err)
        | .ok ips => (ips.find? fun ip => !p.isIPAccessAllowed net ip).map fun ip =>
            p.refusal net (isPrivateIP ip && !p.allowPrivateIp) (host ++ " resolves to ") ip

def endpoint (urlStr : String) : Except String (String × ℤ) := match net.parse urlStr with
  | .error err => .error ("invalid URL format: " ++ err)
  | .ok u =>
      if u.scheme ≠ "http" ∧ u.scheme ≠ "https" then
        .error ("unsupported protocol: " ++ u.scheme ++ " (only http/https allowed)")
      else
        let (host, portStr) := (net.splitHostPort u.host).getD (u.hostname, if u.scheme = "https" then "443" else "80")
        match net.atoi portStr with
        | none => .error ("invalid port: " ++ portStr)
        | some port => .ok (host, port)

def SSRFProtection.validateURL (urlStr : String) : Option String := match endpoint net urlStr with
  | .error err => some err
  | .ok (host, port) =>
      if !p.isAllowedPort port then some ("port " ++ toString port ++ " is not allowed") else p.validateHost net host

/-! ## Spellings of one host -/

def dropZone (host : String) : String := String.ofList (host.toList.takeWhile (· ≠ '%'))

def canonicalHost (host : String) : IP ⊕ String := match net.parseIP (dropZone host) with
  | some ip => .inl ip
  | none => .inr (dropDot (net.toLower host))

/-- The URLs have one port, and equivalent spellings of one host. -/
structure Respelled (url url' host host' : String) : Prop where
  ports : ∃ port, endpoint net url = .ok (host, port) ∧ endpoint net url' = .ok (host', port)
  same : canonicalHost net host = canonicalHost net host'

/-- Whether the host is rejected does not depend on the spelling, with private addresses forbidden. -/
def SpellingBlind (url url' : String) : Prop := ∀ p : SSRFProtection, p.allowPrivateIp = false →
  ((p.validateURL net url).isSome = true ↔ (p.validateURL net url').isSome = true)

/-- Both spellings are read as addresses, or both as names that are the same but for letter case. -/
def SameReading (host host' : String) : Prop :=
  (net.parseIP host).isSome = (net.parseIP host').isSome ∧ (net.parseIP host = none → net.toLower host = net.toLower host')

variable {net p}

theorem canonicalHost_address {host : String} {ip : IP} (h : net.parseIP host = some ip) : canonicalHost net host = .inl ip := by
  have hzone : '%' ∉ host.toList := net.parseIP_zone (by rw [h]; rfl)
  have hdrop : dropZone host = host := by
    rw [dropZone, List.takeWhile_eq_self_iff.mpr, String.ofList_toList]
    intro c hc
    simpa using fun heq : c = '%' => hzone (heq ▸ hc)
  rw [canonicalHost, hdrop, h]

theorem SameReading.validateHost_isSome {host host' : String} (hread : SameReading net host host')
    (hsame : canonicalHost net host = canonicalHost net host') :
    (p.validateHost net host).isSome = (p.validateHost net host').isSome := by
  unfold SSRFProtection.validateHost
  have hsome := hread.1
  cases hip : net.parseIP host with
  | some ip =>
    rw [hip] at hsome
    obtain ⟨ip', hip'⟩ := isSome_iff_exists.mp hsome.symm
    rw [canonicalHost_address hip, canonicalHost_address hip'] at hsame
    rw [hip', Sum.inl.inj hsame]
  | none =>
    rw [hip] at hsome
    have hip' : net.parseIP host' = none := not_isSome_iff_eq_none.mp (by rw [← hsome]; exact Bool.false_ne_true)
    have hlower := hread.2 hip
    have hallowed : p.isDomainAllowed net host = p.isDomainAllowed net host' := by
      rw [SSRFProtection.isDomainAllowed, SSRFProtection.isDomainAllowed, isDomainListed, isDomainListed, hlower]
    have hlookup : lookupIP net host = lookupIP net host' := by rw [lookupIP, lookupIP, hlower]
    rw [hip', hallowed, hlookup]
    dsimp only
    split
    · rfl
    · split
      · rfl
      · cases lookupIP net host' with
        | error err => rfl
        | ok ips => exact (isSome_map ..).trans (isSome_map ..).symm

variable {url url' host host' : String}

theorem Respelled.blind (h : Respelled net url url' host host') (hread : SameReading net host host') :
    SpellingBlind net url url' := by
  intro p _
  obtain ⟨port, hurl, hurl'⟩ := h.ports
  unfold SSRFProtection.validateURL
  rw [hurl, hurl']
  dsimp only
  split
  · exact Iff.rfl
  · rw [hread.validateHost_isSome h.same]

/-! ## Spellings that are told apart -/

def namesOnly : SSRFProtection := ⟨false, false, [], true, [], [], false⟩

theorem validateURL_namesOnly {port : ℤ} (h : endpoint net url = .ok (host, port)) :
    (namesOnly.validateURL net url).isSome = (net.parseIP host).isSome := by
  unfold SSRFProtection.validateURL SSRFProtection.validateHost
  rw [h]
  dsimp only
  cases net.parseIP host with
  | none => rfl
  | some ip =>
    have hrefused : namesOnly.isIPAccessAllowed net ip = false := ite_self _
    dsimp only
    rw [hrefused]
    rfl

def oneName (name : String) : SSRFProtection := ⟨false, true, [name], true, [], [], false⟩

theorem validateURL_oneName {port : ℤ} (name : String) (h : endpoint net url = .ok (host, port))
    (hip : net.parseIP host = none) :
    (oneName name).validateURL net url = none ↔ listsDomain net (net.toLower host) name = true := by
  unfold SSRFProtection.validateURL SSRFProtection.validateHost
  rw [h]
  dsimp only
  rw [hip]
  have hlisted : (oneName name).isDomainAllowed net host = listsDomain net (net.toLower host) name :=
    Bool.or_false _
  rw [hlisted]
  cases listsDomain net (net.toLower host) name <;> simp [oneName, SSRFProtection.isAllowedPort]

/-- A name without space around it that is no pattern. -/
structure Ordinary (net : Net) (host : String) : Prop where
  trimmed : trimSpace host = host
  nonempty : net.toLower host ≠ ""
  noPattern : hasPrefix (net.toLower host) "*." = false

theorem Ordinary.listsDomain_iff (h : Ordinary net host) (domain : String) :
    listsDomain net domain host = true ↔ domain = net.toLower host := by
  unfold listsDomain
  rw [h.trimmed]
  rw [if_neg h.nonempty, h.noPattern, Bool.false_and, Bool.or_false, decide_eq_true_eq]

theorem Respelled.sameReading (h : Respelled net url url' host host') (hhost : Ordinary net host')
    (hblind : SpellingBlind net url url') : SameReading net host host' := by
  obtain ⟨port, hurl, hurl'⟩ := h.ports
  have hsome : (net.parseIP host).isSome = (net.parseIP host').isSome := by
    rw [← validateURL_namesOnly hurl, ← validateURL_namesOnly hurl', Bool.eq_iff_iff]
    exact hblind namesOnly rfl
  refine ⟨hsome, fun hip => ?_⟩
  have hip' : net.parseIP host' = none := not_isSome_iff_eq_none.mp (by rw [← hsome, hip]; exact Bool.false_ne_true)
  have hpasses : (oneName host').validateURL net url' = none :=
    (validateURL_oneName host' hurl' hip').mpr ((hhost.listsDomain_iff _).mpr rfl)
  have hsame := hblind (oneName host') rfl
  rw [hpasses] at hsame
  have hnone : (oneName host').validateURL net url = none :=
    not_isSome_iff_eq_none.mp fun hsome => Bool.false_ne_true (hsame.mp hsome)
  exact (hhost.listsDomain_iff _).mp ((validateURL_oneName host' hurl hip).mp hnone)

/-- Spellings that are read alike are treated alike by every configuration, and ordinary ones only if they are. -/
theorem spelling_blind_iff {url url' host host' : String} (h : Respelled net url url' host host') :
    (SameReading net host host' → SpellingBlind net url url') ∧
      (Ordinary net host' → (SpellingBlind net url url' ↔ SameReading net host host')) :=
  ⟨h.blind, fun hhost => ⟨h.sameReading hhost, h.blind⟩⟩

/-- URLs without a port, one address, and names that do not resolve. -/
def plainNet : Net where
  parse s :=
    let host := trimSuffix (trimPrefix s "http://") "/"
    .ok ⟨"http", host, trimSuffix (trimPrefix host "[") "]"⟩
  splitHostPort _ := none
  atoi s := if s = "80" then some 80 else none
  parseIP s := if s = "127.0.0.1" ∨ s = "::ffff:127.0.0.1" then some 0xffff7f000001 else none
  parseCIDR _ := none
  resolve _ := .error "no such host"
  text _ := "127.0.0.1"
  toLower := toLower
  parseIP_zone := by
    intro s hs
    split at hs
    · next h =>
      rcases h with rfl | rfl <;> decide
    · cases hs

theorem spelling_blind_iff_mapped :
    Respelled plainNet "http://127.0.0.1/" "http://[::ffff:127.0.0.1]/" "127.0.0.1" "::ffff:127.0.0.1" ∧
      SpellingBlind plainNet "http://127.0.0.1/" "http://[::ffff:127.0.0.1]/" := by
  have h : Respelled plainNet "http://127.0.0.1/" "http://[::ffff:127.0.0.1]/" "127.0.0.1" "::ffff:127.0.0.1" :=
    ⟨⟨80, by decide +kernel, by decide +kernel⟩, by decide +kernel⟩
  exact ⟨h, (spelling_blind_iff h).1 ⟨by decide +kernel, fun hnone => absurd hnone (by decide +kernel)⟩⟩

/-- The name is blocked, and with a dot behind it it is not. -/
theorem trailing_dot_passes : Respelled plainNet "http://evil.com/" "http://evil.com./" "evil.com" "evil.com." ∧
      ¬SpellingBlind plainNet "http://evil.com/" "http://evil.com./" := by
  refine ⟨⟨⟨80, by decide +kernel, by decide +kernel⟩, by decide +kernel⟩, fun hblind => ?_⟩
  have hsame := hblind ⟨false, false, ["evil.com"], false, [], [], false⟩ rfl
  revert hsame
  decide +kernel

end HotAI.Ssrf
