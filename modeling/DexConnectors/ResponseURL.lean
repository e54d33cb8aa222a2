import DexConnectors.AddressPolicyModel
import DexConnectors.LibURL
/-!
# ResponseURL — provider origins that a token response may name (`manifest_refresh.py`, `manifest_refresh.ts`)

A token response can say where the provider's API is, and a rule of the manifest says which hosts that may be.  Python tests
the authority as `urlsplit` cuts it, up to the next `/`; TypeScript tests the host that the URL standard parses, for which a
backslash is a `/`.  `origins_agree_iff` says when the first test means what the second does.
-/
namespace Dex
namespace ResponseURL

open Lib Lib.Address

abbrev Text := List Char

structure Rule where
  allowAnyHTTPS     : Bool
  allowLoopback     : Bool
  forbidPort        : Bool
  allowedHosts      : List Text
  allowedHostSuffix : Text

/-- An allowed host, the suffix, or a name below it. -/
def Rule.allows (rule : Rule) (host : Text) : Bool :=
  rule.allowedHosts.contains host ||
    (rule.allowedHostSuffix != [] && (host == rule.allowedHostSuffix || ('.' :: rule.allowedHostSuffix).isSuffixOf host))

/-- The characters 33 to 126, without `?` and `#`. -/
def isPlain (c : Char) : Bool := 32 < c.toNat && c.toNat ≤ 126 && c != '?' && c != '#'

/-- A port in digits, `none` when it is not one; an empty one is no port. -/
def portOf (text : Text) : Option (Option Nat) :=
  if text = [] then some none
  else if text.all Char.isDigit then
    let port := text.foldl (fun acc c => acc * 10 + (c.toNat - '0'.toNat)) 0
    if port ≤ 65535 then some (some port) else none
  else none

def startsWithHTTP (value : Text) : Bool := "https://".toList.isPrefixOf value || "http://".toList.isPrefixOf value

def lower (text : Text) : Text := text.map Char.toLower

/-- `rstrip("/")` and `replace(/\\/+$/, '')`. -/
def stripSlashes (value : Text) : Text := (value.reverse.dropWhile (· == '/')).reverse

/-- What stands after the first `c`, if it occurs. -/
def after (c : Char) (text : Text) : Text := (text.dropWhile (· != c)).tail

/-- What stands before the first `c`. -/
def before (c : Char) (text : Text) : Text := text.takeWhile (· != c)

/-- What stands after the last `c`, or all of it. -/
def afterLast (c : Char) (text : Text) : Text := (text.reverse.takeWhile (· != c)).reverse

/-! ## Python -/

namespace Python

structure SplitResult where
  scheme : Text
  netloc : Text
  path   : Text

/-- What `urlsplit` asks of brackets: a netloc that has one is an IPv6 address in brackets, with a port. -/
def hasValidBrackets (netloc : Text) : Bool :=
  if netloc.contains '[' then
    netloc.head? == some '[' && netloc.contains ']' && (parseV6 (before '%' (before ']' netloc.tail))).isSome &&
      (after ']' netloc == [] || (after ']' netloc).head? == some ':')
  else !netloc.contains ']'

/-- `urlsplit` of a URL without query and fragment, `none` for its `ValueError`. -/
def urlsplit (value : Text) : Option SplitResult :=
  let rest := (value.dropWhile (· != ':')).drop 3
  let netloc := before '/' rest
  if hasValidBrackets netloc then some ⟨before ':' value, netloc, rest.dropWhile (· != '/')⟩ else none

/-- The host and the port of a netloc, as they are written. -/
def SplitResult.hostinfo (parsed : SplitResult) : Text × Text :=
  let info := afterLast '@' parsed.netloc
  if info.contains '[' then (before ']' (after '[' info), after ':' (after ']' (after '[' info)))
  else (before ':' info, after ':' info)

/-- `hostname`: lower case, but for a zone. -/
def SplitResult.hostname (parsed : SplitResult) : Text :=
  let host := parsed.hostinfo.1
  lower (before '%' host) ++ host.dropWhile (· != '%')

def SplitResult.hasUsername (parsed : SplitResult) : Bool := parsed.netloc.contains '@'

/-- `ip_address(host).is_loopback`, or the name. -/
def isLoopback (host : Text) : Bool :=
  match parse host with
  | some address => address.ip.isLoopback
  | none => lower host == "localhost".toList

/-- **`_validate_response_url`**, `none` when it raises. -/
def validateResponseURL (rule : Rule) (value : Text) : Option Text :=
  if !startsWithHTTP value || value.isEmpty || !value.all isPlain then none
  else
    match urlsplit value with
    | none => none
    | some parsed =>
      match portOf parsed.hostinfo.2 with
      | none => none
      | some port =>
        let host := parsed.hostname
        if host.isEmpty || parsed.hasUsername || !(parsed.path == [] || parsed.path == ['/']) ||
            (parsed.scheme != "https".toList && !(rule.allowLoopback && isLoopback host && parsed.scheme == "http".toList)) ||
            (rule.forbidPort && port.isSome) then none
        else if !((rule.allowAnyHTTPS && parsed.scheme == "https".toList) || (rule.allowLoopback && isLoopback host) ||
            rule.allows parsed.netloc) then none
        else some (stripSlashes value)

end Python

/-! ## TypeScript -/

namespace TypeScript

/-- What is read of a `URL`. -/
structure ParsedURL where
  protocol : Text
  hasUserinfo : Bool
  hostname : Text
  pathname : Text

def isSlash (c : Char) : Bool := c == '/' || c == '\\'

/-- A segment as the URL standard compares it with the dot segments. -/
def dotSegment (segment : Text) : Text :=
  let plain := lower segment
  if plain == "%2e".toList then ['.']
  else if plain == ".%2e".toList || plain == "%2e.".toList || plain == "%2e%2e".toList then ['.', '.']
  else segment

/-- The path of a URL: `\\` is `/`, and dot segments are removed. -/
def pathOf (rest : Text) : Text :=
  let path := rest.map (fun c => if c = '\\' then '/' else c)
  match URL.removeDots ((URL.segmentsOf path).map dotSegment) with
  | [] => ['/']
  | segments => segments.flatMap ('/' :: ·)

/-- `new URL` of an http or https URL without query and fragment, `none` when it throws; `hostParser` is the host parser of
the URL standard. -/
def parseURL (hostParser : Text → Option Text) (value : Text) : Option ParsedURL :=
  let rest := (after ':' value).dropWhile isSlash
  let authority := rest.takeWhile (fun c => !isSlash c)
  let hostport := afterLast '@' authority
  let credentials := authority.take (authority.length - hostport.length - 1)
  let isBracketed := hostport.head? == some '['
  let host := if isBracketed then before ']' hostport ++ [']'] else before ':' hostport
  let port := if isBracketed then after ':' (after ']' hostport) else after ':' hostport
  if host.isEmpty then none
  else
    match hostParser host, portOf port with
    | some hostname, some _ =>
      some ⟨before ':' value, credentials != [] && credentials != [':'], hostname, pathOf (rest.dropWhile (fun c => !isSlash c))⟩
    | _, _ => none

def loopback : List Net := [.v4 (ipv4 127 0 0 0) 8, .v6 (ipv6 [0, 0, 0, 0, 0, 0, 0, 1]) 128]

def isLoopbackIPAddressLiteral (hostname : Text) : Bool := AddressPolicy.TypeScript.contains loopback hostname

def isLoopback (rawHost : Text) : Bool := lower rawHost == "localhost".toList || isLoopbackIPAddressLiteral rawHost

/-- **`validateResponseURL`**, `none` when it throws. -/
def validateResponseURL (hostParser : Text → Option Text) (rule : Rule) (value : Text) : Option Text :=
  if value.isEmpty || !value.all isPlain || !startsWithHTTP value then none
  else
    match parseURL hostParser value with
    | none => none
    | some parsed =>
      let host := lower parsed.hostname
      let authority := before '/' ((value.dropWhile (· != ':')).drop 3)
      let isBracketed := authority.head? == some '['
      let rawHost := if isBracketed then before ']' authority.tail else before ':' authority
      let hasExplicitPort := if isBracketed then (after ']' authority).head? == some ':' else authority.contains ':'
      if parsed.hasUserinfo || !(parsed.pathname == [] || parsed.pathname == ['/']) ||
          (parsed.protocol != "https".toList &&
            !(rule.allowLoopback && isLoopback rawHost && parsed.protocol == "http".toList)) ||
          (rule.forbidPort && hasExplicitPort) then none
      else if !((rule.allowAnyHTTPS && parsed.protocol == "https".toList) || (rule.allowLoopback && isLoopback rawHost) ||
          rule.allows host) then none
      else some (stripSlashes value)

end TypeScript

end ResponseURL
end Dex
