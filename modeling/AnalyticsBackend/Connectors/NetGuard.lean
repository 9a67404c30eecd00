import AnalyticsBackend.Lib.IpText
import AnalyticsBackend.Lib.Result

/-!
# The egress policy

`utils/netGuard.js`: which addresses are public, the hosts of a MongoDB connection string, the platform's
own endpoints, and the checks before a connection. Texts are lists of characters; host names are ASCII.
-/

namespace AnalyticsBackend.Connectors
open Lib

/-- What the resolver and the connection strings give. -/
abbrev Text := List Char

/-! ## Refusals -/

def UNRESOLVED_CODE : String := "CONNECTOR_HOST_UNRESOLVED"
def BLOCKED_MESSAGE : String := "The MongoDB host is not allowed. Use a publicly reachable host."
def UNRESOLVED_MESSAGE : String := "The MongoDB host could not be resolved."

/-- A `ConnectorError` of the guard. -/
structure EgressError where
  code : String
  message : String
  statusCode : Nat
  deriving DecidableEq, Repr

def egressBlocked : EgressError := ⟨"CONNECTOR_EGRESS_BLOCKED", BLOCKED_MESSAGE, 400⟩
def hostUnresolved : EgressError := ⟨UNRESOLVED_CODE, UNRESOLVED_MESSAGE, 400⟩
def configInvalid : EgressError := ⟨"CONFIG_INVALID", "Invalid MongoDB connection string", 400⟩

/-! ## Addresses -/

/-- `net.isIPv4`, `net.isIPv6` and `net.isIP`. -/
def isIPv4 (s : Text) : Bool := (readDotted s).isSome
def isIPv6 (s : Text) : Bool := (readIpv6 s).isSome
def isIP (s : Text) : Bool := isIPv4 s || isIPv6 s

/-- `ip.split('.').reduce((acc, octet) => ((acc << 8) + Number(octet)) >>> 0, 0)`. -/
def ipv4ToInt (ip : Text) : Nat :=
  (splitChars '.' ip).foldl (fun acc octet => (acc * 256 + Nat.ofDigitChars 10 octet 0) % 2 ^ 32) 0

/-- The entries of `IPV4_BLOCKED`. -/
def IPV4_BLOCKED : List (String × Nat) :=
  [("0.0.0.0", 8), ("10.0.0.0", 8), ("100.64.0.0", 10), ("127.0.0.0", 8),
    ("169.254.0.0", 16), ("172.16.0.0", 12), ("192.0.0.0", 24), ("192.0.2.0", 24),
    ("192.88.99.0", 24), ("192.168.0.0", 16), ("198.18.0.0", 15), ("198.51.100.0", 24),
    ("203.0.113.0", 24), ("224.0.0.0", 4), ("240.0.0.0", 4)]

/-- `(~0 << (width - bits)) >>> 0`, of a number of `width` bits. -/
def maskOf (width bits : Nat) : Nat := 2 ^ width - 2 ^ (width - bits)

def isBlockedIpv4 (value : Nat) : Bool :=
  IPV4_BLOCKED.any fun (base, bits) =>
    value &&& maskOf 32 bits == ipv4ToInt base.toList &&& maskOf 32 bits

/-- `/(\d+\.\d+\.\d+\.\d+)$/`, of the whole text. -/
def isDottedQuad (s : Text) : Bool :=
  let parts := splitChars '.' s
  parts.length == 4 && parts.all fun part => !part.isEmpty && part.all Char.isDigit

/-- `Number.parseInt(part, 16)` of what is left of an IPv6 text. -/
def parseHextet (part : Text) : Option Nat :=
  let digits := part.takeWhile Lib.isHexDigit
  if digits.isEmpty then none else some (ofHex digits)

/-- A dotted text at the end becomes two groups. -/
def undotted (a : Text) : Text :=
  match a.tails.find? isDottedQuad with
  | none => a
  | some dotted =>
      let v := ipv4ToInt dotted
      a.take (a.length - dotted.length) ++ Nat.toDigits 16 (v / 65536) ++
        ':' :: Nat.toDigits 16 (v % 65536)

/-- The numbers of eight parts. -/
def hextetsOf (parts : List Text) : Option (List Nat) :=
  if parts.length ≠ 8 then none
  else
    match parts.mapM parseHextet with
    | none => none
    | some nums => if nums.any (0xffff < ·) then none else some nums

/-- Expand an IPv6 literal into 8 numeric hextets. -/
def expandIpv6 (address : Text) : Option (List Nat) :=
  let a := undotted ((address.map Char.toLower).takeWhile (· ≠ '%'))
  let pieces := splitPair a
  let headParts := groupTexts (pieces.headD [])
  let tailParts := groupTexts (pieces.tail.headD [])
  let missing := if 1 < pieces.length then 8 - headParts.length - tailParts.length else 0
  hextetsOf (headParts ++ List.replicate missing ['0'] ++ tailParts)

def embeddedIpv4 (h1 h2 : Nat) : Text :=
  ['.'].intercalate ([h1 / 256, h1 % 256, h2 / 256, h2 % 256].map (Nat.toDigits 10))

/-- `isNonPublicAddress` of a dotted text. -/
def isNonPublicDotted (address : Text) : Bool := !isIPv4 address || isBlockedIpv4 (ipv4ToInt address)

/-- The address is loopback, private, link-local, reserved or otherwise not public. -/
def isNonPublicAddress (address : Text) : Bool :=
  if isIPv4 address then isBlockedIpv4 (ipv4ToInt address)
  else if isIPv6 address then
    match expandIpv6 address with
    | some [h0, h1, h2, h3, h4, h5, h6, h7] =>
        let firstFiveZero := [h0, h1, h2, h3, h4].all (· == 0)
        if (firstFiveZero && h5 == 0) && h6 == 0 && (h7 == 0 || h7 == 1) then true
        else if firstFiveZero && h5 == 0xffff then isNonPublicDotted (embeddedIpv4 h6 h7)
        else if firstFiveZero && h5 == 0 then isNonPublicDotted (embeddedIpv4 h6 h7)
        else if h0 == 0x64 && h1 == 0xff9b then true
        else if h0 == 0x2002 then isNonPublicDotted (embeddedIpv4 h1 h2)
        else if h0 == 0x2001 && h1 == 0 then true
        else if h0 == 0x2001 && h1 == 0x0db8 then true
        else if h0 == 0x0100 && h1 == 0 && h2 == 0 && h3 == 0 then true
        else if h0 &&& 0xfe00 == 0xfc00 then true
        else if h0 &&& 0xffc0 == 0xfe80 then true
        else if h0 &&& 0xffc0 == 0xfec0 then true
        else if h0 &&& 0xff00 == 0xff00 then true
        else false
    | _ => true
  else true

/-! ## Hosts of a URL -/

/-- `text.replace(/\.$/, '')`. -/
def dropLastDot (s : Text) : Text := if s.getLast? = some '.' then s.dropLast else s

/-- `toLowerCase` of ASCII text. -/
def lower (s : Text) : Text := s.map Char.toLower

/-- The text with each character that is not printable ASCII as its percent-encoded bytes. -/
def percentEncode (s : Text) : Text :=
  s.flatMap fun c =>
    if 0x1F < c.toNat ∧ c.toNat < 0x7F then [c]
    else (String.utf8EncodeChar c).flatMap fun byte =>
      ['%', (Nat.digitChar (byte.toNat / 16)).toUpper, (Nat.digitChar (byte.toNat % 16)).toUpper]

/-- The first longest run of two or more zero groups: where it starts, and its length. -/
def zeroRun (groups : List Nat) : Option (Nat × Nat) :=
  let runAt (i : Nat) := ((groups.drop i).takeWhile (· = 0)).length
  let best := (List.range groups.length).foldl
    (fun (best : Nat × Nat) i => if best.2 < runAt i then (i, runAt i) else best) (0, 0)
  if 2 ≤ best.2 then some best else none

/-- The text of an IPv6 address in a URL. -/
def serializeIpv6 (a : Ipv6) : Text :=
  let join (groups : List Nat) : Text := [':'].intercalate (groups.map (Nat.toDigits 16))
  match zeroRun a.groups with
  | none => join a.groups
  | some (start, run) => join (a.groups.take start) ++ [':', ':'] ++ join (a.groups.drop (start + run))

/-- The characters that no host may have. -/
def isForbiddenHostChar (c : Char) : Bool :=
  c.toNat = 0 || "\t\n\r #/:<>?@[\\]^|".toList.contains c

/-- Where the host of `host:port` ends: at the first colon outside brackets. -/
def splitPort : Bool → Text → Text × Option Text
  | _, [] => ([], none)
  | inside, c :: rest =>
      if c = ':' ∧ !inside then ([], some rest)
      else
        let (host, port) := splitPort (if c = '[' then true else if c = ']' then false else inside) rest
        (c :: host, port)

/-- The port of a URL, in digits or left out. -/
def readPort : Option Text → Option (Option Nat)
  | none | some [] => some none
  | some digits =>
      if digits.all Char.isDigit ∧ Nat.ofDigitChars 10 digits 0 ≤ 65535 then
        some (some (Nat.ofDigitChars 10 digits 0))
      else none

/-- `new URL` of a scheme of its own, `://` and `value`: the host name and the port. The value has no
blanks, no `/`, `?` or `@`. -/
def parseUrlHost (value : Text) : Option (Text × Option Nat) := do
  let value := (value.reverse.dropWhile fun c => c.toNat ≤ 0x20).reverse
  let (hostText, portText) := splitPort false (value.takeWhile (· ≠ '#'))
  let host ←
    if hostText.head? = some '[' then
      if hostText.getLast? = some ']' then
        (readColons (hostText.tail.dropLast)).map fun a => '[' :: serializeIpv6 a ++ [']']
      else none
    else if hostText.isEmpty ∧ portText.isSome then none
    else if hostText.any isForbiddenHostChar then none
    else some (percentEncode hostText)
  let port ← readPort portText
  return (host, port)

/-! ## Connection strings -/

/-- A host of a connection string; no port where the string names none. -/
structure HostAddress where
  host : Text
  port : Option Nat
  deriving DecidableEq

/-- Normalise one `host[:port]` entry the way the driver does. -/
def parseHostAddress (value : Text) : Option HostAddress := do
  if value.isEmpty ∨ value.any (fun c => isJsSpace c || c == '%') ∨
      (lower value).reverse.take 5 = ".sock".toList.reverse then none
  else
    let (hostname, port) ← parseUrlHost value
    let host := lower hostname
    let host := if host.head? = some '[' ∧ host.getLast? = some ']' then host.tail.dropLast else host
    if host.isEmpty then none
    else if port = some 0 then none
    else some { host, port }

/-- A parsed connection string. -/
structure MongoUri where
  srv : Bool
  hosts : List HostAddress
  deriving DecidableEq

/-- The groups of `MONGO_URI_RE`. -/
structure UriMatch where
  protocol : Text
  username : Option Text
  password : Option Text
  hosts : Text
  rest : Text

def isHostListEnd (c : Char) : Bool := c == '/' || c == '?' || c == '@'

/-- `MONGO_URI_RE.exec(uri)`. Where hosts would start with a colon after the user info, the text before
the `@` is read as the hosts instead. -/
def matchMongoUri (uri : Text) : Option UriMatch :=
  let protocol := (uri.takeWhile (· ≠ '/')).dropLast
  if protocol.isEmpty ∨ (uri.drop protocol.length).take 3 ≠ "://".toList then none
  else
    let text := uri.drop (protocol.length + 3)
    let withHosts (username password : Option Text) (text : Text) : Option UriMatch :=
      if text.head? = some ':' then none
      else
        some { protocol, username, password, hosts := text.takeWhile fun c => !isHostListEnd c
               rest := text.dropWhile fun c => !isHostListEnd c }
    let userInfo := text.takeWhile (· ≠ '@')
    match text.drop userInfo.length with
    | [] => withHosts none none text
    | _ :: afterAt =>
        let username := userInfo.takeWhile (· ≠ ':')
        let password := (userInfo.drop username.length).tail?
        (withHosts (some username) password afterAt).or (withHosts none none text)

/-- `USERINFO_ILLEGAL`. -/
def isIllegalUserInfo (c : Char) : Bool := ":/?#[]@".toList.contains c

/-- Split a MongoDB connection string into its scheme and hosts. -/
def parseMongoUri (uri : String) : Option MongoUri := do
  let found ← matchMongoUri (trim uri).toList
  let scheme := lower found.protocol
  if scheme ≠ "mongodb".toList ∧ scheme ≠ "mongodb+srv".toList then none
  else if found.hosts.isEmpty then none
  else if (found.username.getD []).any isIllegalUserInfo then none
  else if (found.password.getD []).any isIllegalUserInfo then none
  else if (found.rest.dropWhile fun c => c ≠ '/' ∧ c ≠ '?' ∧ c ≠ '@').head? = some '@' then none
  else
    let hosts ← (splitChars ',' found.hosts).mapM parseHostAddress
    let srv := scheme = "mongodb+srv".toList
    if srv ∧ hosts.map HostAddress.port ≠ [none] then none
    else some { srv, hosts }

/-! ## Host policy -/

/-- `text.endsWith(suffix)`. -/
def endsWith (s suffix : Text) : Bool := suffix.isSuffixOf s

/-- A name of digits, or one with a hexadecimal label: the system resolver reads it as an address. -/
def isNumericName (h : Text) : Bool :=
  (!h.isEmpty && h.all fun c => c.isDigit || c == '.') ||
    (splitChars '.' h).any fun label =>
      label.take 2 == "0x".toList && (label.drop 2).all fun c => c.isDigit || ('a' ≤ c && c ≤ 'f')

/-- The host name is obviously internal (or IP-like) without resolving it. -/
def isObviouslyInternalHost (host : Text) : Bool :=
  let h := dropLastDot (lower host)
  if h.isEmpty then true
  else if isIP h then isNonPublicAddress h
  else if isNumericName h then true
  else
    h == "localhost".toList || endsWith h ".localhost".toList || endsWith h ".local".toList ||
      endsWith h ".internal".toList || endsWith h ".localdomain".toList ||
      endsWith h ".home.arpa".toList || !h.contains '.'

def LOOPBACK : Text := "loopback".toList

/-- `text.replace(/^\[|\]$/g, '')`. -/
def dropBrackets (s : Text) : Text :=
  let s := if s.head? = some '[' then s.tail else s
  if s.getLast? = some ']' then s.dropLast else s

/-- Normalise a host for endpoint comparison (loopback aliases collapse). -/
def normaliseHost (host : Text) : Text :=
  let h := dropBrackets (dropLastDot (lower host))
  if h = "localhost".toList ∨ endsWith h ".localhost".toList then LOOPBACK
  else if isIP h ∧ ("127.".toList.isPrefixOf h ∨ h = "::1".toList ∨ h = "0.0.0.0".toList ∨
      h = "::".toList) then LOOPBACK
  else h

structure Endpoint where
  host : Text
  port : Nat
  deriving DecidableEq

/-- The platform's own data stores: their endpoints, and names that are refused whatever the port. -/
structure PlatformPolicy where
  endpoints : List Endpoint
  suffixes : List Text

/-- The endpoints of a MongoDB URI, and whether it is an SRV seed. -/
def endpointsOfUri (uri : String) : List (Endpoint × Bool) :=
  match parseMongoUri uri with
  | none => []
  | some parsed => parsed.hosts.map fun h => (⟨lower h.host, h.port.getD 27017⟩, parsed.srv)

/-- The policy of the database's URI and of the endpoints of the Redis URL. -/
def platformHostPolicy (databaseUri : String) (redis : List (Endpoint × Bool)) : PlatformPolicy :=
  let all := endpointsOfUri databaseUri ++ redis
  { endpoints := (all.filter fun e => !e.2).map Prod.fst
    suffixes := (all.filter Prod.snd).flatMap fun (e, _) =>
      let labels := splitChars '.' e.host
      e.host :: if 3 ≤ labels.length then ['.' :: ['.'].intercalate labels.tail] else [] }

/-- `host[:port]` is one of the platform's own endpoints. With no port only the name rules apply. -/
def isPlatformHost (host : Text) (port : Option Nat) (policy : PlatformPolicy) : Bool :=
  let raw := dropLastDot (lower host)
  if policy.suffixes.any fun s => if s.head? = some '.' then endsWith raw s else raw == s then true
  else
    match port with
    | none => false
    | some port =>
        policy.endpoints.any fun e => normaliseHost e.host == normaliseHost raw && e.port == port

/-- The egress allow-list admits `host` (no list = all hosts). -/
def isHostAllowListed (host : Text) (allowList : List String) : Bool :=
  if allowList.isEmpty then true
  else
    let h := dropLastDot (lower host)
    allowList.any fun entry =>
      let e := (trim (String.ofList (lower entry.toList))).toList
      if e.isEmpty then false else if e.head? = some '.' then endsWith h e else h == e

/-- The options of a check. -/
structure EgressOptions where
  allowPrivate : Bool
  allowList : List String
  platform : PlatformPolicy

/-- The policy check without resolving: a generic reason. -/
def hostPolicyViolation (opts : EgressOptions) (host : Text) (port : Option Nat) : Option String :=
  if isPlatformHost host port opts.platform then some "the host is not allowed"
  else if !isHostAllowListed host opts.allowList then some "the host is not on the allowed list"
  else if !opts.allowPrivate && isObviouslyInternalHost host then
    some "the host must be a public address"
  else none

/-! ## Resolution -/

structure SrvRecord where
  name : Text
  port : Option Nat
  deriving DecidableEq

/-- What DNS answers; nothing where a lookup fails. -/
structure Resolver where
  lookup : Text → List Text
  resolveSrv : Text → List SrvRecord

/-- The addresses of a host: itself, when it is one. -/
def addressesOf (resolver : Resolver) (host : Text) : List Text :=
  if isIP host then [host] else resolver.lookup host

/-- Resolved addresses of the platform's own endpoints. -/
def platformAddresses (policy : PlatformPolicy) (resolver : Resolver) : List (Text × Nat) :=
  policy.endpoints.flatMap fun e => (addressesOf resolver e.host).map fun address => (address, e.port)

/-- The check of one endpoint. -/
def assertEndpointAllowed (opts : EgressOptions) (resolver : Resolver) (e : Endpoint) :
    Except EgressError Unit := do
  if (hostPolicyViolation opts e.host (some e.port)).isSome then .error egressBlocked
  else
    let addresses := addressesOf resolver e.host
    if addresses.isEmpty then .error hostUnresolved
    else if !opts.allowPrivate && addresses.any isNonPublicAddress then .error egressBlocked
    else
      let hit := addresses.any fun address =>
        (platformAddresses opts.platform resolver).any fun p =>
          p.2 == e.port && normaliseHost p.1 == normaliseHost address
      if hit then .error egressBlocked else .ok ()

/-- Resolve and check every endpoint. -/
def assertEgressAllowed (opts : EgressOptions) (resolver : Resolver) (endpoints : List Endpoint) :
    Except EgressError Unit := endpoints.forM (assertEndpointAllowed opts resolver)

/-- The endpoints that the driver dials: the hosts, or the targets of the SRV records. -/
def endpointsOf (resolver : Resolver) (parsed : MongoUri) : List Endpoint :=
  if parsed.srv then
    (resolver.resolveSrv ("_mongodb._tcp.".toList ++ ((parsed.hosts.map HostAddress.host).headD []))).map
      fun r => ⟨r.name, r.port.getD 27017⟩
  else parsed.hosts.map fun h => ⟨h.host, h.port.getD 27017⟩

/-- Resolve every host the driver may contact (SRV targets included) and refuse anything the egress
policy does not allow. -/
def assertPublicMongoHosts (opts : EgressOptions) (resolver : Resolver) :
    Option MongoUri → Except EgressError Unit
  | none => .error configInvalid
  | some parsed => do
      parsed.hosts.forM fun seed =>
        let port := if parsed.srv then none else some (seed.port.getD 27017)
        if (hostPolicyViolation opts seed.host port).isSome then .error egressBlocked else .ok ()
      let endpoints := endpointsOf resolver parsed
      if parsed.srv ∧ endpoints.isEmpty then .error hostUnresolved
      else assertEgressAllowed opts resolver endpoints

end AnalyticsBackend.Connectors
