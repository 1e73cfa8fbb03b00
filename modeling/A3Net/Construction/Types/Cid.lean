import A3Net.Cryptography.Blake3

namespace A3Net

open Cryptography

inductive Codec where
  | dagPb | dagCbor | raw | dagJson

def Codec.code : Codec → UInt64
  | .dagPb => 0x70
  | .dagCbor => 0x71
  | .raw => 0x55
  | .dagJson => 0x85

inductive HashCode where
  | identity | sha256 | sha512 | blake3 | sha1 | md5

def HashCode.toU64 : HashCode → UInt64
  | .identity => 0x00
  | .sha256 => 0x12
  | .sha512 => 0x13
  | .blake3 => 0x1e
  | .sha1 => 0x11
  | .md5 => 0xd5

/-- The parser looks neither at the code nor at the length of the digest. -/
structure Multihash where
  code : UInt64
  digest : Bytes
deriving DecidableEq

/-- A number that does not end within nine bytes has no length. -/
def decodeVarint (bytes : Bytes) : UInt64 × Nat := go 0 0 0 (bytes.take 9)
where
  go (result shift : UInt64) (len : Nat) : Bytes → UInt64 × Nat
    | [] => (0, 0)
    | byte :: rest =>
      let result := result ||| (byte &&& 0x7f).toUInt64 <<< shift
      if byte &&& 0x80 = 0 then (result, len + 1) else go result (shift + 7) (len + 1) rest

/-- The length of long numbers is not counted. -/
def varintLen (value : UInt64) : Nat :=
  if value < 0x80 then 1
  else if value < 0x4000 then 2
  else if value < 0x200000 then 3
  else if value < 0x10000000 then 4
  else 5

theorem toNat_shiftRight_seven (value : UInt64) : (value >>> 7).toNat = value.toNat / 128 := by
  simp [Nat.shiftRight_eq_div_pow]

def encodeVarint (value : UInt64) : Bytes :=
  let byte := (value &&& 0x7f).toUInt8
  let rest := value >>> 7
  if rest = 0 then [byte] else (byte ||| 0x80) :: encodeVarint rest
termination_by value.toNat
decreasing_by
  have more : (value >>> 7).toNat ≠ 0 := fun none => ‹¬ rest = 0› (UInt64.toNat_inj.mp none)
  rw [toNat_shiftRight_seven] at more ⊢
  omega

/-- The only error is that of an invalid encoding. -/
def Multihash.fromBytes (bytes : Bytes) : Option Multihash :=
  if bytes.length < 2 then none
  else
    let (code, codeLen) := decodeVarint bytes
    if codeLen = 0 ∨ bytes.length ≤ codeLen then none
    else
      let (len, lenLen) := decodeVarint (bytes.drop codeLen)
      if lenLen = 0 ∨ bytes.length < codeLen + lenLen + len.toNat then none
      else some ⟨code, (bytes.drop (codeLen + lenLen)).take len.toNat⟩

def Multihash.toBytes (hash : Multihash) : Bytes :=
  encodeVarint hash.code ++ (encodeVarint (.ofNat hash.digest.length) ++ hash.digest)

def Multihash.encodedLen (hash : Multihash) : Nat :=
  varintLen hash.code + varintLen (.ofNat hash.digest.length) + hash.digest.length

structure Cid where
  version : UInt8
  codec : UInt64
  multihash : Multihash

namespace Cid

def newV1 (codec : Codec) (multihash : Multihash) : Cid := ⟨1, codec.code, multihash⟩

/-- Only as many bytes are compared as the shorter digest has. -/
def verifyContent (cid : Cid) (content : Bytes) : Bool :=
  let storedDigest := cid.multihash.digest
  let computedDigest := (blake3 content).bytes
  let compareLen := min storedDigest.length computedDigest.length
  storedDigest.take compareLen = computedDigest.take compareLen

end Cid
end A3Net
