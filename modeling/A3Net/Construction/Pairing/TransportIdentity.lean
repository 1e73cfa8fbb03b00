import A3Net.Construction.Pairing.Invitation

namespace A3Net.Pairing

open Cryptography Identity

def transportSchemeEd25519 : UInt8 := 1

def maxTimestampSkewSeconds : Int64 := 300

/-- These are the functions of the Ed25519 library. A key that it refuses has an error text, and
the verification takes the key, the message and the signature. -/
structure Ed25519 where
  keyError : Bytes → Option String
  verify : Bytes → Bytes → Bytes → Bool

structure PairingRequest where
  version : UInt8
  credentialId : CredentialId
  nodeId : NodeId
  transportPubkey : Bytes
  requestedCapabilities : CapabilitySet
  expiresAtUnix : Int64
  nonce : Nonce32
  signature : Bytes

structure PairingResponse where
  version : UInt8
  credentialId : CredentialId
  nonce : Nonce32
  issuerNodeId : NodeId
  issuerPubkey : Bytes
  grantedCapabilities : CapabilitySet
  expiresAtUnix : Int64
  signature : Bytes

def requestDomainTag : Bytes := utf8 "a3net-pairing-request/v1\x00"

def responseDomainTag : Bytes := utf8 "a3net-pairing-response/v1\x00"

variable (response : PairingResponse) (req : PairingRequest) (node : Bytes)

def requestFields : List Bytes := [
  requestDomainTag,
  [req.version],
  req.credentialId.toList,
  node,
  req.transportPubkey,
  utf8Chars req.requestedCapabilities.canonical,
  toBeBytes req.expiresAtUnix,
  req.nonce.toList]

def requestUpdates : Option (List Bytes) :=
  req.nodeId.asBytes.map (requestFields req)

def pairingRequestDigest : Option Digest :=
  (requestUpdates req).map hashUpdates

def responseFields : List Bytes := [
  responseDomainTag,
  [response.version],
  response.credentialId.toList,
  response.nonce.toList,
  node,
  response.issuerPubkey,
  utf8Chars response.grantedCapabilities.canonical,
  toBeBytes response.expiresAtUnix]

def responseUpdates : Option (List Bytes) :=
  response.issuerNodeId.asBytes.map (responseFields response)

def pairingResponseDigest : Option Digest :=
  (responseUpdates response).map hashUpdates

structure PairingRequestBuilder where
  credentialId : CredentialId
  nodeId : NodeId
  transportPubkey : Bytes
  requestedCapabilities : CapabilitySet
  ttlSeconds : Int64

/-- The clock and the nonce come from the environment, and the signer signs the digest. -/
def PairingRequestBuilder.build (builder : PairingRequestBuilder) (sign : Bytes → Bytes)
    (now : Int64) (nonce : Nonce32) : PairingResult PairingRequest :=
  let req : PairingRequest := {
    version := 1
    credentialId := builder.credentialId
    nodeId := builder.nodeId
    transportPubkey := builder.transportPubkey
    requestedCapabilities := builder.requestedCapabilities
    expiresAtUnix :=
      now + if builder.ttlSeconds ≤ 0 then maxTimestampSkewSeconds else builder.ttlSeconds
    nonce
    signature := []}
  (pairingRequestDigest req).map fun digest =>
    .ok {req with signature := transportSchemeEd25519 :: sign digest.bytes}

/-- The signature is checked before the node identifier is compared with the key. -/
def verifyTransport (lib : Ed25519) (req : PairingRequest) (signature : Bytes) :
    PairingResult Unit :=
  (pairingRequestDigest req).bind fun digest =>
    match lib.keyError req.transportPubkey with
    | some text =>
      some (.error (.malformed "pairing_request.transport_pubkey"
        s!"invalid ed25519 public key: {text}"))
    | none =>
      if lib.verify req.transportPubkey digest.bytes signature then
        req.nodeId.asBytes.map fun node =>
          if node ≠ req.transportPubkey then .error .nodeIdMismatch else .ok ()
      else some (.error .transportSignatureInvalid)

/-- The difference of two times wraps. -/
def verifyPairingRequest (lib : Ed25519) (req : PairingRequest) (now : Int64) :
    PairingResult Unit :=
  if req.version ≠ 1 then
    let version := req.version
    some (.error (.malformed "pairing_request.version" s!"unsupported version {version}"))
  else if req.expiresAtUnix < now then
    some (.error (.requestExpired req.expiresAtUnix now))
  else if maxTimestampSkewSeconds < req.expiresAtUnix - now then
    some (.error (.clockSkew maxTimestampSkewSeconds req.expiresAtUnix now))
  else
    match splitScheme req.signature with
    | .error error => some (.error error)
    | .ok (tag, signature) =>
      if tag ≠ transportSchemeEd25519 then some (.error (.unsupportedScheme tag))
      else if signature.length ≠ 64 then some (.error (.signatureLength 64 signature.length))
      else if req.transportPubkey.length ≠ 32 then
        let got := req.transportPubkey.length
        some (.error (.malformed "pairing_request.transport_pubkey"
          s!"expected 32 bytes, got {got}"))
      else verifyTransport lib req signature

/-- The recovered signer is dropped. -/
def verifyPairingResponse (lib : Library) (response : PairingResponse)
    (req : PairingRequest) (now : Int64) : PairingResult Unit :=
  if response.version ≠ 1 then
    let version := response.version
    some (.error (.malformed "pairing_response.version" s!"unsupported version {version}"))
  else if response.nonce ≠ req.nonce then some (.error .nonceMismatch)
  else if response.expiresAtUnix = Int64.maxValue then
    some (.error (.malformed "pairing_response.expires_at_unix"
      "response must have a finite expiry (i64::MAX is not allowed)"))
  else if response.expiresAtUnix < now then
    some (.error (.requestExpired response.expiresAtUnix now))
  else
    (pairingResponseDigest response).map fun digest =>
      match recoverIssuer lib "pairing_response.signature" digest response.signature with
      | .error error => .error error
      | .ok _ => .ok ()

end A3Net.Pairing
