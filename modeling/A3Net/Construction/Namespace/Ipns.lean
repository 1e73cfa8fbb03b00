import A3Net.Cryptography.Encoding

namespace A3Net.Ipns

open Cryptography

inductive IpnsError where
  | invalidSignature
  | expired
  | invalidKey (text : String)
  | deserialize (text : String)

structure IpnRecord where
  name : String
  value : String
  sequence : UInt64
  ttlSecs : UInt64
  created : UInt64
  expires : UInt64
  signature : Bytes
  sigType : UInt8
  validityType : String
  validityOffset : UInt64
deriving DecidableEq

/-- A verifier has its public key inside. -/
abbrev Verifier := Bytes → Bytes → Bool

/-- The library knows which 32 bytes are a public key, and checks a signature of 64 bytes. -/
structure Ed25519 where
  isKey : Bytes → Bool
  verify : Bytes → Bytes → Bytes → Bool

variable (lib : Ed25519) (key : Bytes)

def Ed25519.verifier : Verifier := fun data signature =>
  if signature.length ≠ 64 then false else lib.verify key data signature

/-- This is `from_bytes` of the verifier. -/
def Ed25519.fromBytes : Except IpnsError Verifier :=
  if lib.isKey key then .ok (lib.verifier key)
  else .error (.invalidKey "Invalid Ed25519 public key")

namespace IpnRecord

variable (record : IpnRecord)

def isExpired (now : UInt64) : Bool := record.expires < now

/-- Every other text than `1` counts as a validity in seconds. -/
def validityByte : UInt8 := if record.validityType = "1" then 1 else 0

/-- The value has no length in front of it. -/
def signingData : Bytes :=
  [0, record.sigType] ++ bigEndian 8 record.sequence.toNat ++ bigEndian 8 record.ttlSecs.toNat ++
    [record.validityByte] ++ bigEndian 8 record.expires.toNat ++ utf8 record.value

def legacySigningData : Bytes :=
  let valueBytes := utf8 record.value
  [0, record.sigType] ++ bigEndian 8 record.sequence.toNat ++ bigEndian 8 record.ttlSecs.toNat ++
    bigEndian 8 record.created.toNat ++ bigEndian 8 record.expires.toNat ++
    bigEndian 4 valueBytes.length ++ valueBytes

def verifySignature (verifier : Verifier) : Bool :=
  if record.signature.isEmpty then false else verifier record.signingData record.signature

def verifySignatureLegacy (verifier : Verifier) : Bool :=
  if record.signature.isEmpty then false else verifier record.legacySigningData record.signature

/-- The source writes the standard layout a second time here. -/
def verifyProtobufSignature (record : IpnRecord) (pubkeyBytes : Bytes) :
    Except IpnsError Unit :=
  if record.signature.length ≠ 64 then .error .invalidSignature
  else if pubkeyBytes.length ≠ 32 then .error (.invalidKey "invalid public key length")
  else
    match lib.fromBytes pubkeyBytes with
    | .error _ => .error (.invalidKey "invalid Ed25519 public key")
    | .ok verifier =>
      if verifier record.signingData record.signature then .ok () else .error .invalidSignature

def toIpnsProtobuf : Bytes :=
  bigEndian 2 record.sigType.toNat ++ bigEndian 8 record.sequence.toNat ++
    bigEndian 8 record.ttlSecs.toNat ++ bigEndian 8 record.expires.toNat ++
    [record.validityByte] ++ bigEndian 8 record.validityOffset.toNat ++ utf8 record.value ++
    record.signature

def wordAt (bytes : Bytes) (offset : Nat) : UInt64 :=
  UInt64.ofNat (ofBigEndian ((bytes.drop offset).take 8))

/-- The name and the time of creation are not in this form. -/
def fromIpnsProtobuf (bytes : Bytes) : Except IpnsError IpnRecord :=
  let minLen := 2 + 8 + 8 + 8 + 1 + 8 + 64
  let length := bytes.length
  if length < minLen then
    .error (.deserialize
      s!"IPNS protobuf too short: got {length} bytes, expected at least {minLen}")
  else
    let valueEnd := length - 64
    match fromUtf8 ((bytes.take valueEnd).drop 35) with
    | none => .error (.deserialize "invalid UTF-8 in value")
    | some value =>
      let signature := bytes.drop valueEnd
      let size := signature.length
      if size ≠ 64 then
        .error (.deserialize s!"invalid signature length: got {size} bytes, expected 64")
      else
        .ok {
          name := ""
          value := String.ofList value
          sequence := wordAt bytes 2
          ttlSecs := wordAt bytes 10
          created := 0
          expires := wordAt bytes 18
          signature
          sigType := UInt8.ofNat (ofBigEndian (bytes.take 2))
          validityType := if bytes[26]? = some 1 then "1" else "0"
          validityOffset := wordAt bytes 27 }

end IpnRecord
end A3Net.Ipns
