import A3Net.Construction.Relay.ProxyPolicy

namespace A3Net.Relay

open Cryptography Machine

structure MeshFetchQuery where
  host : List Char
  port : UInt16
  path : List Char

structure ServerPolicy where
  hostPolicy : HostPolicy := .defaultBlockPrivate
  maxBodyBytes : Nat := 16 * 1024 * 1024
  redirectPolicy : SafeRedirectPolicy := {host := .defaultBlockPrivate}

/-- A header that is no text counts as missing. -/
structure UpstreamResponse where
  status : Nat
  location : Option (List Char) := none
  contentLength : Option (List Char) := none
  contentType : Option Bytes := none

/-- The library for requests gives an answer to each request in turn. It refuses an address that
cannot be parsed and a URL without a host. -/
structure HttpClient where
  build : Except (List Char) Unit := .ok ()
  badUrl : List Char → List Char := id
  noHost : Url → List Char := fun _ => []
  answer : Nat → Except (List Char) UpstreamResponse

/-- The statuses are those of the standard. -/
inductive ProxyResponse where
  | refused (status : Nat) (text : List Char)
  | forwarded (response : UpstreamResponse)

def badRequest : Nat := 400
def payloadTooLarge : Nat := 413
def internalServerError : Nat := 500
def badGateway : Nat := 502

def isRedirection (status : Nat) : Bool := 300 ≤ status && status < 400

def normalizeMeshPath (path : List Char) : List Char :=
  let path := trim path
  if path.head? = some '/' then path else '/' :: path

variable (urls : UrlLibrary) (lookup : HostPolicy.Lookup) (client : HttpClient)
  (policy : ServerPolicy) (query : MeshFetchQuery)

def validateRequest : Except (Nat × List Char) Unit :=
  let host := trim query.host
  if host = [] ∨ 253 < (utf8Chars host).length then .error (badRequest, "Invalid host".toList)
  else if query.port = 0 then .error (badRequest, "Invalid port".toList)
  else
    match validatePath query.path with
    | .error text => .error (badRequest, text.toList)
    | .ok () =>
      match policy.hostPolicy.acceptsResolved lookup host with
      | .error text => .error (badRequest, text)
      | .ok () => .ok ()

/-- This is what follows `http://` in the address of the first request. -/
def addressText : List Char :=
  trim query.host ++ ':' :: decimal query.port.toNat ++ normalizeMeshPath query.path

def upstreamUrl : List Char := "http://".toList ++ addressText query

/-- The URLs that were requested are kept in order. -/
def send (requests : List Url) (url : Url) :
    Except (List Char) UpstreamResponse × List Url :=
  match url.host with
  | none => (.error (client.noHost url), requests)
  | some _ => (client.answer requests.length, requests ++ [url])

/-- A location is always joined to the first address. -/
def nextUrl (upstream loc : List Char) : Except (List Char) (Url × Url) :=
  match urls.parse upstream with
  | .error text => .error text
  | .ok base =>
    match urls.join base loc with
    | .error text => .error text
    | .ok next => .ok (base, next)

/-- The number counts the redirects that may still be followed. -/
def followRedirects (upstream : List Char) : Nat → UpstreamResponse → List Char → List Url →
    Except (Nat × List Char) UpstreamResponse × List Url
  | left, response, host, requests =>
    if !isRedirection response.status then (.ok response, requests)
    else
      match left with
      | 0 => (.error (badGateway, "Too many redirects (limit ".toList ++
          decimal policy.redirectPolicy.limit ++ ")".toList), requests)
      | left + 1 =>
        match response.location with
        | none => (.error (badGateway, "redirect with no Location header".toList), requests)
        | some loc =>
          match nextUrl urls upstream loc with
          | .error text =>
            (.error (badGateway, "invalid redirect Location: ".toList ++ text), requests)
          | .ok (base, next) =>
            let nextHost := next.host.getD host
            match policy.redirectPolicy.checkRedirect base next host with
            | .error text =>
              (.error (badGateway, "redirect rejected: ".toList ++ text.toList), requests)
            | .ok () =>
              match policy.hostPolicy.acceptsResolved lookup nextHost with
              | .error text =>
                (.error (badGateway, "redirect host rejected: ".toList ++ text),
                  requests)
              | .ok () =>
                match send client requests next with
                | (.error text, requests) =>
                  (.error (badGateway,
                    "upstream fetch after redirect failed: ".toList ++ text),
                    requests)
                | (.ok response, requests) =>
                  followRedirects upstream left response nextHost requests

/-- A content length that is no number counts as missing. -/
def forward (response : UpstreamResponse) : ProxyResponse :=
  let length := (response.contentLength.bind parseUnsigned).filter (· < 2 ^ 64)
  match length with
  | some length =>
    if policy.maxBodyBytes < length then
      .refused payloadTooLarge ("upstream Content-Length ".toList ++ decimal length ++
        " exceeds policy max ".toList ++ decimal policy.maxBodyBytes)
    else .forwarded response
  | none => .forwarded response

/-- The second component lists the requested URLs. -/
def proxyMeshFetch : ProxyResponse × List Url :=
  match validateRequest lookup policy query with
  | .error (status, text) => (.refused status text, [])
  | .ok () =>
    match client.build with
    | .error text => (.refused internalServerError ("client build failed: ".toList ++ text), [])
    | .ok () =>
      match urls.parse (upstreamUrl query) with
      | .error text =>
        (.refused badGateway ("Upstream fetch failed: ".toList ++ client.badUrl text), [])
      | .ok url =>
        match send client [] url with
        | (.error text, requests) =>
          (.refused badGateway ("Upstream fetch failed: ".toList ++ text), requests)
        | (.ok response, requests) =>
          match followRedirects urls lookup client policy (upstreamUrl query)
              policy.redirectPolicy.limit response (trim query.host) requests with
          | (.error (status, text), requests) => (.refused status text, requests)
          | (.ok response, requests) => (forward policy response, requests)

end A3Net.Relay
