import A3Net.Cryptography.Encoding

namespace A3Net.NatTraversal

open Cryptography

def magicCookie : Nat := 0x2112A442

abbrev TransactionId := Vector UInt8 12

inductive MessageType where
  | bindingRequest | bindingResponse | bindingError
  | allocateRequest | allocateResponse | allocateError
  | refreshRequest | refreshResponse | refreshError
  | createPermissionRequest
  | channelBindRequest | channelBindResponse | channelBindError
  | sendIndication | dataIndication
  | other (code : UInt16)

namespace MessageType

def fromU16 : UInt16 → MessageType
  | 0x0001 => .bindingRequest
  | 0x0101 => .bindingResponse
  | 0x0111 => .bindingError
  | 0x0003 => .allocateRequest
  | 0x0103 => .allocateResponse
  | 0x0113 => .allocateError
  | 0x0004 => .refreshRequest
  | 0x0104 => .refreshResponse
  | 0x0114 => .refreshError
  | 0x0008 => .createPermissionRequest
  | 0x0009 => .channelBindRequest
  | 0x0109 => .channelBindResponse
  | 0x0119 => .channelBindError
  | 0x0016 => .sendIndication
  | 0x0017 => .dataIndication
  | code => .other code

def toU16 : MessageType → UInt16
  | .bindingRequest => 0x0001
  | .bindingResponse => 0x0101
  | .bindingError => 0x0111
  | .allocateRequest => 0x0003
  | .allocateResponse => 0x0103
  | .allocateError => 0x0113
  | .refreshRequest => 0x0004
  | .refreshResponse => 0x0104
  | .refreshError => 0x0114
  | .createPermissionRequest => 0x0008
  | .channelBindRequest => 0x0009
  | .channelBindResponse => 0x0109
  | .channelBindError => 0x0119
  | .sendIndication => 0x0016
  | .dataIndication => 0x0017
  | .other code => code

end MessageType

structure Attribute where
  attrType : UInt16
  value : Bytes

structure Message where
  kind : MessageType
  transactionId : TransactionId
  attributes : List Attribute

/-- Zeros fill the value up to a multiple of four bytes. -/
def pad (value : Bytes) : Bytes :=
  if value.length % 4 = 0 then value else pad (value ++ [0])
termination_by (4 - value.length % 4) % 4
decreasing_by
  rw [List.length_append, List.length_singleton]
  omega

namespace Message

variable (msg : Message)

def pushAttr (attr : UInt16 × Bytes) : Message :=
  {msg with attributes := msg.attributes ++ [⟨attr.1, pad attr.2⟩]}

def bodyLength : Nat :=
  (msg.attributes.map fun attr => 4 + attr.value.length).sum

/-- A length that does not fit loses its high bytes. -/
def encodeAttr (attr : Attribute) : Bytes :=
  bigEndian 2 attr.attrType.toNat ++ bigEndian 2 attr.value.length ++ attr.value

def encode : Bytes :=
  bigEndian 2 msg.kind.toU16.toNat ++ bigEndian 2 msg.bodyLength ++
    bigEndian 4 magicCookie ++ msg.transactionId.toList ++ msg.attributes.flatMap encodeAttr

def numberAt (bytes : Bytes) (offset count : Nat) : Nat :=
  ofBigEndian ((bytes.drop offset).take count)

def decodeAttributes (body : Bytes) (i : Nat) : Option (List Attribute) :=
  if i + 4 ≤ body.length then
    let attrLen := numberAt body (i + 2) 2
    if body.length < i + 4 + attrLen then none
    else
      (decodeAttributes body (i + (4 + (attrLen + 3) / 4 * 4))).map
        (⟨.ofNat (numberAt body i 2), (body.drop (i + 4)).take attrLen⟩ :: ·)
  else some []
termination_by body.length - i

def decode (buf : Bytes) : Option Message :=
  if large : buf.length < 20 then none
  else
    let msgLen := numberAt buf 2 2
    if numberAt buf 4 4 ≠ magicCookie then none
    else if buf.length < 20 + msgLen then none
    else
      (decodeAttributes ((buf.drop 20).take msgLen) 0).map fun attributes =>
        { kind := .fromU16 (.ofNat (numberAt buf 0 2))
          transactionId := ⟨((buf.drop 8).take 12).toArray, by simp; omega⟩
          attributes }

end Message

end A3Net.NatTraversal
