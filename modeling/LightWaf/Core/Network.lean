import LightWaf.Rust.Net

/-!
# Resolving the client address behind trusted proxies

The embedding of `waf-core/src/network/client_ip.rs`.  The forwarded chain is
read from the first header line of the configured name, and the address is
taken `trusted_hops` from its right end.

The two-run result at the end compares a request with the same request after
an attacker has put content in front of the chain.
-/

namespace LightWaf.Core

open LightWaf.Rust

/-- A header line: its name and its value. -/
abbrev HeaderLine := Text × Text

/-- The `[network]` section. -/
structure NetworkConfig where
  trustedProxies : List Text := []
  clientIpHeader : Text := "x-forwarded-for".toList
  trustedHops : Nat := 1

/-- How the client address was determined. -/
inductive IpSource
  | directPeer
  | trustedHeader
  | fallbackMissingHeader
  | fallbackMalformed
deriving DecidableEq, Repr

/-- The chosen address and how it was obtained. -/
structure ResolvedClientIp where
  ip : IpAddr
  source : IpSource
deriving DecidableEq, Repr

/-! ## Address blocks -/

/-- An address block: network bits and prefix length. -/
inductive Cidr
  | v4 (net : BitVec 32) (length : Nat)
  | v6 (net : BitVec 128) (length : Nat)
deriving DecidableEq, Repr

/-- Comparison of the top `length` bits, with the shift edges explicit. -/
def maskEq (width : Nat) (left right : BitVec width) (length : Nat) : Bool :=
  let mask : BitVec width :=
    if length = 0 then 0
    else if length = width then BitVec.allOnes width
    else BitVec.allOnes width <<< (width - length)
  left &&& mask == right &&& mask

/-- `mask_eq_u32`. -/
def maskEqU32 (left right : BitVec 32) (length : Nat) : Bool :=
  maskEq 32 left right length

/-- `mask_eq_u128`. -/
def maskEqU128 (left right : BitVec 128) (length : Nat) : Bool :=
  maskEq 128 left right length

namespace Cidr

/-- A prefix length, a `u8` of at most `full`; the full one when absent. -/
def parsePrefix (full : Nat) : Option Text → Option Nat
  | some digits =>
      (fromStrRadix 10 256 digits).filter fun length => length ≤ full
  | none => some full

/-- `Cidr::parse`. -/
def parse (text : Text) : Option Cidr := do
  let (addrPart, prefixPart) :=
    match findSplit ['/'] (trim text) with
    | some (addr, length) => (trim addr, some (trim length))
    | none => (trim text, none)
  match ← IpAddr.fromStr addrPart with
  | .v4 bits => return .v4 bits (← parsePrefix 32 prefixPart)
  | .v6 bits => return .v6 bits (← parsePrefix 128 prefixPart)

/-- `Cidr::contains`: a family mismatch never matches. -/
def contains (block : Cidr) (ip : IpAddr) : Bool :=
  match block, ip with
  | v4 net length, .v4 addr => maskEqU32 net addr length
  | v6 net length, .v6 addr => maskEqU128 net addr length
  | _, _ => false

end Cidr

/-- `is_valid_cidr`. -/
def isValidCidr (text : Text) : Bool :=
  (Cidr.parse text).isSome

/-! ## The resolver -/

/-- The resolver built from the configuration. -/
structure ClientIpResolver where
  trusted : List Cidr
  header : Text
  hops : Nat

/-- The non-empty trimmed tokens of a forwarded chain. -/
def chainTokens (value : Text) : List Text :=
  ((value.splitOn ',').map trim).filter fun token => !token.isEmpty

namespace ClientIpResolver

/-- `from_config`: entries that do not parse are skipped. -/
def fromConfig (config : NetworkConfig) : ClientIpResolver where
  trusted := config.trustedProxies.filterMap Cidr.parse
  header := toAsciiLowercase config.clientIpHeader
  hops := config.trustedHops

/-- Whether a header line carries the forwarded chain. -/
def carriesChain (resolver : ClientIpResolver) (line : HeaderLine) : Bool :=
  eqIgnoreAsciiCase line.1 resolver.header

/-- `header_value`: the value of the first line of the configured name. -/
def headerValue (resolver : ClientIpResolver) (headers : List HeaderLine) :
    Option Text :=
  (headers.find? resolver.carriesChain).map Prod.snd

/-- Whether the peer is one of the trusted proxies. -/
def trusts (resolver : ClientIpResolver) (peer : IpAddr) : Bool :=
  resolver.trusted.any fun block => block.contains peer

/-- The choice made from a chain that was found. -/
def resolveChain (resolver : ClientIpResolver) (peer : IpAddr)
    (chain : List Text) : ResolvedClientIp :=
  if resolver.hops = 0 ∨ chain.length < resolver.hops then
    ⟨peer, .fallbackMalformed⟩
  else
    match (chain[chain.length - resolver.hops]?).bind IpAddr.fromStr with
    | some ip => ⟨ip, .trustedHeader⟩
    | none => ⟨peer, .fallbackMalformed⟩

/-- `resolve`. -/
def resolve (resolver : ClientIpResolver) (peer : IpAddr)
    (headers : List HeaderLine) : ResolvedClientIp :=
  if !resolver.trusts peer then ⟨peer, .directPeer⟩
  else
    match resolver.headerValue headers with
    | none => ⟨peer, .fallbackMissingHeader⟩
    | some value => resolver.resolveChain peer (chainTokens value)

/-! ## Content in front of the chain -/

/-- The request's chain: its lines of the configured name, comma-joined. -/
def joinedChain (resolver : ClientIpResolver) (headers : List HeaderLine) :
    Text :=
  [','].intercalate ((headers.filter resolver.carriesChain).map Prod.snd)

/-- Put content before the chain, inside the line that opens it. -/
def prependContent (resolver : ClientIpResolver) (content : Text) :
    List HeaderLine → List HeaderLine
  | [] => []
  | line :: rest =>
      if resolver.carriesChain line then
        (line.1, content ++ ',' :: line.2) :: rest
      else line :: resolver.prependContent content rest

/--
The request after an attack: content inside the opening line, and extra lines
in front of all others.
-/
def attacked (resolver : ClientIpResolver) (content : Text)
    (extra : List HeaderLine) (headers : List HeaderLine) :
    List HeaderLine :=
  extra ++ resolver.prependContent content headers

theorem chainTokens_prepend (content value : Text) :
    chainTokens (content ++ ',' :: value) =
      chainTokens content ++ chainTokens value := by
  simp [chainTokens, List.splitOn_append_cons_self]

theorem headerValue_prependContent
    (resolver : ClientIpResolver) (content : Text)
    (headers : List HeaderLine) :
    resolver.headerValue (resolver.prependContent content headers) =
      (resolver.headerValue headers).map fun value =>
        content ++ ',' :: value := by
  induction headers with
  | nil => rfl
  | cons line rest induction =>
      by_cases opens : resolver.carriesChain line = true
      · have still :
            resolver.carriesChain
              (line.1, content ++ ',' :: line.2) = true := opens
        simp [headerValue, prependContent, opens, still]
      · simp only [headerValue, prependContent, opens] at induction ⊢
        simpa [opens] using induction

/-- Tokens in front of a chain that is long enough are not looked at. -/
theorem resolveChain_append
    (resolver : ClientIpResolver) (peer : IpAddr)
    (front chain : List Text) (long : resolver.hops ≤ chain.length) :
    resolver.resolveChain peer (front ++ chain) =
      resolver.resolveChain peer chain := by
  have position :
      (front ++ chain)[(front ++ chain).length - resolver.hops]? =
        chain[chain.length - resolver.hops]? := by
    rw [List.length_append, Nat.add_sub_assoc long,
      List.getElem?_append_right (by omega)]
    congr 1
    omega
  unfold resolveChain
  rw [position]
  by_cases none : resolver.hops = 0
  · simp [none]
  · have short : ¬ chain.length < resolver.hops := by omega
    have short' : ¬ (front ++ chain).length < resolver.hops := by
      rw [List.length_append]
      omega
    simp only [none, short, short', or_self]

/-- Enough tokens in front of a short chain decide the address. -/
theorem resolveChain_forged
    (resolver : ClientIpResolver) (peer ip : IpAddr)
    (token : Text) (parsed : IpAddr.fromStr token = some ip)
    (chain : List Text)
    (hops : 1 ≤ resolver.hops) (short : chain.length < resolver.hops) :
    resolver.resolveChain peer
        (List.replicate resolver.hops token ++ chain) =
      ⟨ip, .trustedHeader⟩ := by
  have chosen :
      (List.replicate resolver.hops token ++ chain)[
          (List.replicate resolver.hops token ++ chain).length -
            resolver.hops]? = some token := by
    rw [List.length_append, List.length_replicate, Nat.add_sub_cancel_left,
      List.getElem?_append_left (by simpa using short),
      List.getElem?_replicate]
    simp [short]
  unfold resolveChain
  rw [chosen]
  simp [parsed, show resolver.hops ≠ 0 by omega]

/-- The content of `count` equal tokens. -/
def forgedContent (token : Text) : Nat → Text
  | 0 => []
  | count + 1 => token ++ ',' :: forgedContent token count

theorem chainTokens_forged
    (token : Text) (plain : chainTokens token = [token]) (count : Nat) :
    chainTokens (forgedContent token count) =
      List.replicate count token := by
  induction count with
  | zero =>
      show chainTokens [] = []
      decide
  | succ count induction =>
      rw [forgedContent, chainTokens_prepend, plain, induction]
      rfl

theorem resolve_trusted
    (resolver : ClientIpResolver) (peer : IpAddr)
    (headers : List HeaderLine) {value : Text}
    (trusted : resolver.trusts peer = true)
    (found : resolver.headerValue headers = some value) :
    resolver.resolve peer headers =
      resolver.resolveChain peer (chainTokens value) := by
  simp [resolve, trusted, found]

/-- A joined chain with tokens has an opening line. -/
theorem headerValue_of_joinedChain
    (resolver : ClientIpResolver) (headers : List HeaderLine)
    (tokens : 1 ≤ (chainTokens (resolver.joinedChain headers)).length) :
    ∃ value, resolver.headerValue headers = some value := by
  cases found : headers.find? resolver.carriesChain with
  | some line => exact ⟨line.2, by simp [headerValue, found]⟩
  | none =>
      have absent : headers.filter resolver.carriesChain = [] := by
        rw [List.filter_eq_nil_iff]
        exact List.find?_eq_none.mp found
      rw [joinedChain, absent] at tokens
      exact absurd tokens (by decide)

/-- Two different addresses that an attacker can put in front of a chain. -/
theorem forgeable :
    ∃ (token token' : Text) (ip ip' : IpAddr), ip ≠ ip' ∧
      (chainTokens token = [token] ∧ IpAddr.fromStr token = some ip) ∧
      (chainTokens token' = [token'] ∧ IpAddr.fromStr token' = some ip') :=
  ⟨"1.1.1.1".toList, "2.2.2.2".toList, .v4 0x01010101#32, .v4 0x02020202#32,
    by decide +kernel⟩

/-- The first extra line, if there is one, is the line that is read. -/
theorem headerValue_extra
    (resolver : ClientIpResolver) (name value : Text)
    (rest : List HeaderLine)
    (same : eqIgnoreAsciiCase name resolver.header = true) :
    resolver.headerValue ((name, value) :: rest) = some value := by
  have opens : resolver.carriesChain (name, value) = true := same
  simp [headerValue, opens]

/--
An attack that forges the address: by extra lines when there are any, by
content inside the opening line when that line alone is too short.
-/
theorem attacked_forged
    (resolver : ClientIpResolver) (peer : IpAddr)
    (headers : List HeaderLine) (names : List Text) {value : Text}
    (trusted : resolver.trusts peer = true)
    (hops : 1 ≤ resolver.hops)
    (same : ∀ name ∈ names,
      eqIgnoreAsciiCase name resolver.header = true)
    (found : resolver.headerValue headers = some value)
    (weak : names = [] → (chainTokens value).length < resolver.hops)
    (token : Text) (ip : IpAddr)
    (plain : chainTokens token = [token])
    (parsed : IpAddr.fromStr token = some ip) :
    let content := forgedContent token resolver.hops
    resolver.resolve peer
        (resolver.attacked content
          (names.zip (List.replicate names.length content)) headers) =
      ⟨ip, .trustedHeader⟩ := by
  intro content
  have forged := chainTokens_forged token plain resolver.hops
  cases names with
  | nil =>
      have read := resolver.headerValue_prependContent content headers
      rw [found, Option.map_some] at read
      have attackedEq :
          resolver.attacked content
              (([] : List Text).zip (List.replicate 0 content)) headers =
            resolver.prependContent content headers := rfl
      rw [List.length_nil, attackedEq,
        resolver.resolve_trusted peer _ trusted read, chainTokens_prepend,
        forged]
      exact resolver.resolveChain_forged peer ip token parsed _ hops
        (weak rfl)
  | cons name rest =>
      have read := resolver.headerValue_extra name content
        (rest.zip (List.replicate rest.length content) ++
          resolver.prependContent content headers)
        (same name (by simp))
      have attackedEq :
          resolver.attacked content
              ((name :: rest).zip
                (List.replicate (name :: rest).length content)) headers =
            (name, content) ::
              (rest.zip (List.replicate rest.length content) ++
                resolver.prependContent content headers) := rfl
      rw [attackedEq, resolver.resolve_trusted peer _ trusted read, forged,
        ← List.append_nil (List.replicate resolver.hops token)]
      exact resolver.resolveChain_forged peer ip token parsed [] hops hops

/-- Content inside a long enough opening line is not looked at. -/
theorem resolve_prependContent
    (resolver : ClientIpResolver) (peer : IpAddr)
    (headers : List HeaderLine) {value : Text} (content : Text)
    (trusted : resolver.trusts peer = true)
    (found : resolver.headerValue headers = some value)
    (long : resolver.hops ≤ (chainTokens value).length) :
    resolver.resolve peer (resolver.prependContent content headers) =
      resolver.resolve peer headers := by
  have read := resolver.headerValue_prependContent content headers
  rw [found, Option.map_some] at read
  rw [resolver.resolve_trusted peer _ trusted read,
    resolver.resolve_trusted peer _ trusted found, chainTokens_prepend]
  exact resolver.resolveChain_append peer _ _ long

/--
Spoof resistance, exactly.  The untrusted peer is always its own client.  For
a trusted peer and a chain of enough tokens, no content changes the result if
and only if no extra line of the header's name can be sent and the opening
line alone has enough tokens.
-/
theorem resolve_attacked_iff
    (config : NetworkConfig) (hops : 1 ≤ config.trustedHops)
    (peer : IpAddr) (headers : List HeaderLine) :
    let resolver := fromConfig config
    (resolver.trusts peer = false →
      resolver.resolve peer headers = ⟨peer, .directPeer⟩) ∧
    (resolver.trusts peer = true →
      config.trustedHops ≤
        (chainTokens (resolver.joinedChain headers)).length →
      ∀ names : List Text,
        (∀ name ∈ names, eqIgnoreAsciiCase name resolver.header = true) →
        ((∀ (content : Text) (values : List Text),
            values.length = names.length →
            resolver.resolve peer
                (resolver.attacked content (names.zip values) headers) =
              resolver.resolve peer headers) ↔
          names = [] ∧
            ∃ line, headers.find? resolver.carriesChain = some line ∧
              config.trustedHops ≤ (chainTokens line.2).length)) := by
  intro resolver
  refine ⟨fun untrusted => by simp [resolve, untrusted], ?_⟩
  intro trusted enough names same
  obtain ⟨value, found⟩ :=
    resolver.headerValue_of_joinedChain headers (hops.trans enough)
  obtain ⟨line, opening, lineValue⟩ := Option.map_eq_some_iff.mp found
  constructor
  · intro unchanged
    by_contra refuted
    have weak :
        names = [] → (chainTokens value).length < resolver.hops := by
      intro noNames
      by_contra long
      exact refuted ⟨noNames, line, opening, by
        rw [lineValue]
        exact not_lt.mp long⟩
    obtain ⟨token, token', ip, ip', distinct, first, second⟩ := forgeable
    have forged := resolver.attacked_forged peer headers names trusted hops
      same found weak token ip first.1 first.2
    have forged' := resolver.attacked_forged peer headers names trusted hops
      same found weak token' ip' second.1 second.2
    have unforged :=
      (unchanged _ _ (List.length_replicate ..)).symm.trans forged
    have unforged' :=
      (unchanged _ _ (List.length_replicate ..)).symm.trans forged'
    exact distinct
      (ResolvedClientIp.mk.inj (unforged.symm.trans unforged')).1
  · rintro ⟨rfl, opening', found', long⟩ content values -
    have sameLine : opening' = line :=
      Option.some.inj (found'.symm.trans opening)
    rw [sameLine, lineValue] at long
    exact resolver.resolve_prependContent peer headers content trusted found
      long

/-- A trusted proxy and one hop: content inside the only line is harmless. -/
theorem resolve_attacked_iff_one_hop :
    let config : NetworkConfig :=
      { trustedProxies := ["10.0.0.0/8".toList] }
    let resolver := fromConfig config
    let headers : List HeaderLine :=
      [("x-forwarded-for".toList, "198.51.100.7".toList)]
    resolver.resolve (.v4 0x0A000001#32)
        (resolver.attacked "203.0.113.66".toList [] headers) =
      ⟨.v4 0xC6336407#32, .trustedHeader⟩ := by
  intro config resolver headers
  have exactly :=
    (resolve_attacked_iff config (by decide) (.v4 0x0A000001#32) headers).2
      (by decide +kernel) (by decide +kernel) [] (by simp)
  have unchanged :=
    exactly.mpr ⟨rfl, _, rfl, by decide +kernel⟩ "203.0.113.66".toList []
      rfl
  refine unchanged.trans ?_
  decide +kernel

/-- An earlier line of the same name replaces the client address. -/
theorem resolve_spoofed_by_earlier_line :
    ¬ ∀ (config : NetworkConfig) (peer : IpAddr)
      (headers extra : List HeaderLine) (content : Text),
      let resolver := fromConfig config
      1 ≤ config.trustedHops →
      resolver.trusts peer = true →
      config.trustedHops ≤
        (chainTokens (resolver.joinedChain headers)).length →
      (∀ line ∈ extra, resolver.carriesChain line = true) →
      resolver.resolve peer (resolver.attacked content extra headers) =
        resolver.resolve peer headers := by
  intro claimed
  have equal := claimed { trustedProxies := ["10.0.0.0/8".toList] }
    (.v4 0x0A000001#32)
    [("x-forwarded-for".toList, "198.51.100.7".toList)]
    [("X-Forwarded-For".toList, "203.0.113.66".toList)] []
    (by decide) (by decide +kernel) (by decide +kernel) (by decide +kernel)
  exact absurd equal (by decide +kernel)

end ClientIpResolver

end LightWaf.Core
