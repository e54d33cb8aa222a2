import DexConnectors.LibAddress
/-!
# AddressPolicyModel — what the SDKs may dial (`address_policy.go`, `address_policy.py`, `netpolicy.ts`)

A host is resolved once, every answer is checked, and only then is one dialed.  An answer is an address in some text: Go is
given the address, Python and TypeScript the text.
-/
namespace Dex
namespace AddressPolicy

open Lib.Address

/-- The restricted policies. -/
inductive Policy where
  | publicHTTPS | privateNetworkHTTP
  deriving DecidableEq

inductive Scheme where
  | http | https
  deriving DecidableEq

/-- A resolved address as a resolver writes it. -/
structure Answer where
  text    : List Char
  address : Zoned
  spells  : parse text = some address

/-- How an attempt to connect ends; `raised` is an error after which no other address is tried. -/
inductive Attempt where
  | connected | failed | raised
  deriving DecidableEq

/-- The addresses that are dialed, and the one that connected: in order, until one connects. -/
def dialEach (attempt : Nat → Attempt) : Nat → List Zoned → List Zoned × Option Zoned
  | _, [] => ([], none)
  | n, address :: addresses =>
    match attempt n with
    | .connected => ([address], some address)
    | .raised => ([address], none)
    | .failed => (address :: (dialEach attempt (n + 1) addresses).1, (dialEach attempt (n + 1) addresses).2)

inductive Outcome where
  | noAddresses
  | refused (reason : String)
  | connected (address : Zoned)
  | failed
  deriving DecidableEq

/-- What a call does: the addresses it dials and how it ends. -/
structure Run where
  dialed  : List Zoned
  outcome : Outcome

def Run.ofDials (dials : List Zoned × Option Zoned) : Run := ⟨dials.1, dials.2.elim .failed .connected⟩

def linkLocalReason : String := "link-local addresses, which include the cloud metadata address, are never allowed"
def unicastReason : String := "only unicast addresses are allowed"
def plainReason : String := "plain http is not allowed; use https"
def publicReason : String := "only public addresses are allowed"
def privateReason : String := "plain http is allowed only when every resolved address is loopback or private; use https"

def privateNets : List Net :=
  [.v4 (ipv4 10 0 0 0) 8, .v4 (ipv4 172 16 0 0) 12, .v4 (ipv4 192 168 0 0) 16, .v6 (ipv6 [0xFC00, 0, 0, 0, 0, 0, 0, 0]) 7]

def sharedNet : Net := .v4 (ipv4 100 64 0 0) 10

def metadataIPv6 : IP := .v6 (ipv6 [0xFD00, 0xEC2, 0, 0, 0, 0, 0, 0x254])

def broadcastIPv4 : IP := .v4 (ipv4 255 255 255 255)

/-! ## Go -/

namespace Go

/-- `netip.Addr.IsPrivate`. -/
def isPrivate (ip : IP) : Bool := privateNets.any (·.contains ip)

/-- `resolved.WithZone("").Unmap()`. -/
def checkedAddress (resolved : Zoned) : Zoned := ⟨resolved.ip.unmap, []⟩

def refusalReason (policy : Policy) (address : Zoned) (isPlainHTTP : Bool) : String :=
  let isPrivateNetwork := address.ip.isLoopback || isPrivate address.ip
  if address.ip.isLinkLocal || address.ip.isLinkLocalMulticast || address == ⟨metadataIPv6, []⟩ then linkLocalReason
  else if address.ip.isUnspecified || address.ip.isMulticast then unicastReason
  else if policy == .publicHTTPS && isPlainHTTP then plainReason
  else if policy == .publicHTTPS && (isPrivateNetwork || sharedNet.contains address.ip) then publicReason
  else if policy == .privateNetworkHTTP && isPlainHTTP && !isPrivateNetwork then privateReason
  else ""

/-- The loop of `dialContext` that checks: every address, or the first reason. -/
def checkAll (policy : Policy) (isPlainHTTP : Bool) : List Zoned → Except String (List Zoned)
  | [] => .ok []
  | resolved :: rest =>
    let reason := refusalReason policy (checkedAddress resolved) isPlainHTTP
    if reason ≠ "" then .error reason else (checkAll policy isPlainHTTP rest).map (checkedAddress resolved :: ·)

/-- **`dialContext`** after the lookup. -/
def dialContext (policy : Policy) (isPlainHTTP : Bool) (addresses : List Zoned) (attempt : Nat → Attempt) : Run :=
  if addresses = [] then ⟨[], .noAddresses⟩
  else
    match checkAll policy isPlainHTTP addresses with
    | .error reason => ⟨[], .refused reason⟩
    | .ok checked => .ofDials (dialEach attempt 0 checked)

end Go

/-! ## Python -/

namespace Python

/-- `ipv4_mapped` of an IPv6 address, or the address with its scope. -/
def unmapped : Zoned → Zoned
  | ⟨.v6 bits, zone⟩ => if isMapped bits then ⟨.v4 (bits.setWidth 32), []⟩ else ⟨.v6 bits, zone⟩
  | ⟨.v4 bits, zone⟩ => ⟨.v4 bits, zone⟩

/-- `_checked_ip`, `none` for its `ValueError`. -/
def checkedIp (address : List Char) : Option Zoned := (parse address).map unmapped

def privateNetworks : List Net := privateNets

/-- `_refusal_reason`; two addresses are equal when their scopes are. -/
def refusalReason (address : List Char) (scheme : Scheme) (policy : Policy) : String :=
  match checkedIp address with
  | none => "resolved address is invalid"
  | some parsed =>
    let isPrivate := parsed.ip.isLoopback || privateNetworks.any (·.contains parsed.ip)
    if parsed.ip.isLinkLocal || parsed == ⟨metadataIPv6, []⟩ then linkLocalReason
    else if parsed.ip.isUnspecified || parsed.ip.isMulticast || parsed == ⟨broadcastIPv4, []⟩ then unicastReason
    else if policy == .publicHTTPS && scheme != .https then plainReason
    else if policy == .publicHTTPS && (isPrivate || sharedNet.contains parsed.ip) then publicReason
    else if policy == .privateNetworkHTTP && scheme == .http && !isPrivate then privateReason
    else ""

/-- The loop of `connect_tcp` that checks. -/
def checkAll (scheme : Scheme) (policy : Policy) : List (List Char) → Except String (List Zoned)
  | [] => .ok []
  | address :: rest =>
    let reason := refusalReason address scheme policy
    if reason ≠ "" then .error reason
    else (checkAll scheme policy rest).map ((checkedIp address).toList ++ ·)

/-- **`connect_tcp`** after the resolution, which raises when there are no addresses. -/
def connectTcp (scheme : Scheme) (policy : Policy) (addresses : List (List Char)) (attempt : Nat → Attempt) : Run :=
  if addresses = [] then ⟨[], .noAddresses⟩
  else
    match checkAll scheme policy addresses with
    | .error reason => ⟨[], .refused reason⟩
    | .ok checked => .ofDials (dialEach attempt 0 checked)

end Python

/-! ## TypeScript -/

namespace TypeScript

/-- `hostname.replace(/^\\[|\\]$/g, '')`. -/
def unbracketHostname (hostname : List Char) : List Char :=
  let opened := if hostname.head? = some '[' then hostname.tail else hostname
  if opened.getLast? = some ']' then opened.dropLast else opened

/-- The characters of a zone that `net.isIP` takes. -/
def isZoneChar (c : Char) : Bool :=
  ('0' ≤ c && c ≤ '9') || ('a' ≤ c && c ≤ 'z') || ('A' ≤ c && c ≤ 'Z') || c == '-' || c == '.' || c == ':'

/-- The address that `net.isIP` and `net.SocketAddress` see in a text. -/
def ipOf (address : List Char) : Option IP :=
  match cutZone address with
  | (body, none) => parseIP body
  | (body, some zone) => if zone ≠ [] ∧ zone.all isZoneChar then (parseV6 body).map IP.v6 else none

/-- `net.isIP`. -/
def isIP (address : List Char) : Nat :=
  match ipOf address with
  | none => 0
  | some (.v4 _) => 4
  | some (.v6 _) => 6

/-- Whether a rule of a `net.BlockList` matches: an address of the other family is taken in its IPv4-mapped form. -/
def ruleMatches : Net → IP → Bool
  | .v4 net length, .v4 bits => startsWith net length bits
  | .v4 net length, .v6 bits => isMapped bits && startsWith net length (bits.setWidth 32)
  | .v6 net length, .v4 bits => startsWith net length (mapped bits)
  | .v6 net length, .v6 bits => startsWith net length bits

/-- `contains`. -/
def contains (list : List Net) (hostname : List Char) : Bool :=
  match ipOf (unbracketHostname hostname) with
  | none => false
  | some ip => list.any (ruleMatches · ip)

def privateAddresses : List Net :=
  [.v4 (ipv4 127 0 0 0) 8, .v4 (ipv4 10 0 0 0) 8, .v4 (ipv4 172 16 0 0) 12, .v4 (ipv4 192 168 0 0) 16,
    .v6 (ipv6 [0, 0, 0, 0, 0, 0, 0, 1]) 128, .v6 (ipv6 [0xFC00, 0, 0, 0, 0, 0, 0, 0]) 7]

def linkLocal : List Net := [.v4 (ipv4 169 254 0 0) 16, .v6 (ipv6 [0xFE80, 0, 0, 0, 0, 0, 0, 0]) 10]

def sharedAddressSpace : List Net := [.v4 (ipv4 100 64 0 0) 10]

def multicast : List Net := [.v4 (ipv4 224 0 0 0) 4, .v6 (ipv6 [0xFF00, 0, 0, 0, 0, 0, 0, 0]) 8]

def isPrivateIPAddressLiteral (hostname : List Char) : Bool := contains privateAddresses hostname

def isAlwaysRefusedIPAddressLiteral (hostname : List Char) : Bool :=
  let address := unbracketHostname hostname
  address == "0.0.0.0".toList || address == "255.255.255.255".toList || address == "::".toList ||
    address.map Char.toLower == "fd00:ec2::254".toList || contains linkLocal address || contains multicast address

/-- **`isAllowedProviderIPAddress`.** -/
def isAllowedProviderIPAddress (address : List Char) (protocol : Scheme) (policy : Policy) : Bool :=
  if isIP (unbracketHostname address) = 0 || isAlwaysRefusedIPAddressLiteral address then false
  else
    match policy with
    | .publicHTTPS => protocol == .https && !isPrivateIPAddressLiteral address && !contains sharedAddressSpace address
    | .privateNetworkHTTP => protocol == .https || isPrivateIPAddressLiteral address

/-- The address that `sendProviderRequest` connects to: the first answer, when every one is allowed. -/
def selectAddress (protocol : Scheme) (policy : Policy) (addresses : List (List Char)) : Option (List Char) :=
  if addresses = [] || addresses.any (fun address => !isAllowedProviderIPAddress address protocol policy) then none
  else addresses.head?

end TypeScript

end AddressPolicy
end Dex
