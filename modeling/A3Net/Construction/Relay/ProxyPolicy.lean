import A3Net.Machine.IpAddress
import A3Net.Machine.Url

namespace A3Net.Relay

open Cryptography Machine

def maxPathLen : Nat := 256

inductive HostPolicy where
  | defaultBlockPrivate
  | allowLoopbackOnly
  | allowAllUntrusted

def parseLiteral (host : List Char) : Option IpAddr :=
  IpAddr.parse (trimMatches (fun char => char = '[' || char = ']') (trim host))

def isPublicV4 (octets : Vector UInt8 4) : Bool :=
  !(IpAddr.isLoopbackV4 octets || IpAddr.isPrivate octets || IpAddr.isLinkLocal octets ||
    IpAddr.isMulticastV4 octets || IpAddr.isUnspecifiedV4 octets || IpAddr.isBroadcast octets ||
    octets = #v[169, 254, 169, 254] ||
    (octets[0]! = 100 && octets[1]! &&& 0b11000000 = 0b01000000) ||
    octets[0]! = 0 ||
    (octets[0]! = 192 && octets[1]! = 0 && octets[2]! = 0) ||
    (octets[0]! = 198 && (octets[1]! = 18 || octets[1]! = 19)))

def isPublicV6 (segments : Vector UInt16 8) : Bool :=
  if IpAddr.isLoopbackV6 segments || IpAddr.isUnspecifiedV6 segments ||
      IpAddr.isMulticastV6 segments || segments[0]! &&& 0xfe00 = 0xfc00 ||
      segments[0]! &&& 0xffc0 = 0xfe80 then false
  else
    match IpAddr.toIpv4Mapped segments with
    | some octets => isPublicV4 octets
    | none =>
      match IpAddr.toIpv4 segments with
      | some octets => isPublicV4 octets
      | none => true

def isPublic : IpAddr → Bool
  | .v4 octets => isPublicV4 octets
  | .v6 segments => isPublicV6 segments

def isLoopback : IpAddr → Bool
  | .v4 octets => IpAddr.isLoopbackV4 octets
  | .v6 segments => IpAddr.isLoopbackV6 segments

def isLabelChar (char : Char) : Bool := char.isAlphanum || char = '-'

def isPlausibleHostname (host : List Char) : Bool :=
  let name := trim host
  if name = [] ∨ 253 < (utf8Chars name).length then false
  else if name = "localhost".toList then true
  else if '/' ∈ name ∨ '\x00' ∈ name then false
  else
    (name.splitOn '.').all fun label =>
      !label.isEmpty && (utf8Chars label).length ≤ 63 && label.all isLabelChar

namespace HostPolicy

def accepts (policy : HostPolicy) (host : List Char) : Except String Unit :=
  match policy with
  | .allowAllUntrusted => .ok ()
  | .allowLoopbackOnly =>
    match parseLiteral host with
    | some ip => if isLoopback ip then .ok () else .error "host is not a loopback address"
    | none => .error "host must be a loopback IP literal in this policy"
  | .defaultBlockPrivate =>
    match parseLiteral host with
    | some ip =>
      if isPublic ip then .ok () else .error "host is in a private/loopback/link-local range"
    | none =>
      if isPlausibleHostname host then .ok ()
      else .error "host is not a syntactically valid hostname"

/-- The resolver gives the addresses of a name or an error. -/
abbrev Lookup := List Char → Except (List Char) (List IpAddr)

def acceptsResolved (policy : HostPolicy) (lookup : Lookup) (host : List Char) :
    Except (List Char) Unit :=
  match policy with
  | .allowAllUntrusted => .ok ()
  | .allowLoopbackOnly =>
    match accepts .allowLoopbackOnly host with
    | .ok () => .ok ()
    | .error text => .error text.toList
  | .defaultBlockPrivate =>
    match parseLiteral host with
    | some ip =>
      if isPublic ip then .ok ()
      else .error "host is in a private/loopback/link-local range".toList
    | none =>
      if !isPlausibleHostname host then
        .error "host is not a syntactically valid hostname".toList
      else
        match lookup (trim host) with
        | .error error =>
          .error ("DNS resolution failed for ".toList ++ host ++ ": ".toList ++ error)
        | .ok addresses =>
          match addresses.find? fun ip => !isPublic ip with
          | some ip =>
            .error ("host ".toList ++ host ++
              " resolves to private/loopback/link-local address ".toList ++ ip.print)
          | none =>
            if addresses = [] then
              .error ("host ".toList ++ host ++ " has no A/AAAA records".toList)
            else .ok ()

end HostPolicy

def blobsStart : List Char := "/blobs/".toList

def validatePath (path : List Char) : Except String Unit :=
  let path := trim path
  if path.head? ≠ some '/' then .error "path must start with /"
  else if !blobsStart.isPrefixOf path then .error "path must start with /blobs/"
  else if maxPathLen < (utf8Chars path).length then .error "path too long"
  else if '\\' ∈ path then .error "path contains backslash"
  else if '\x00' ∈ path then .error "path contains NUL"
  else if path.any fun char => char.toNat < 0x20 && char ≠ '\t' then
    .error "path contains control character"
  else if (path.splitOn '/').any fun seg => seg = ['.', '.'] then
    .error "path contains traversal segment"
  else .ok ()

structure SafeRedirectPolicy where
  host : HostPolicy
  limit : Nat := 3

/-- The port is not looked at. -/
def SafeRedirectPolicy.checkRedirect (policy : SafeRedirectPolicy) (current next : Url)
    (currentHost : List Char) : Except String Unit := do
  let sameHost := if next = current then some currentHost else next.host
  let targetHost := (next.host.or sameHost).getD currentHost
  policy.host.accepts targetHost
  validatePath next.path

end A3Net.Relay
