import A3Net.Machine.Text

namespace A3Net.Identity

open Cryptography Machine

def evmAddressLen : Nat := 20

structure Address where
  bytes : Bytes
  size : bytes.length = evmAddressLen
deriving DecidableEq

/-- The recovery byte is kept as it is sent. -/
structure PersonalSignature where
  r : Bytes
  s : Bytes
  v : UInt8
  rSize : r.length = 32
  sSize : s.length = 32
deriving DecidableEq

inductive IdentityError where
  | invalidSignature (text : String)
  | invalidAddressLength (length : Nat)
  | hex (text : String)
deriving DecidableEq

def IdentityError.text : IdentityError → String
  | invalidSignature text => s!"invalid signature: {text}"
  | invalidAddressLength length => s!"EVM address must be 20 bytes, got {length}"
  | hex text => s!"hex decode error: {text}"

/-- These are the functions that the crate takes from its libraries. A recovery gives the address
of the signer of a digest, and the hexadecimal library gives the text of its errors. -/
structure Library where
  keccak256 : Bytes → Bytes
  recoverPersonal : Bytes → PersonalSignature → Except IdentityError Address
  hexError : String → String

def decodeHex (lib : Library) (text : List Char) : Except String Bytes :=
  match bytesOfHexChars text with
  | some bytes => .ok bytes
  | none => .error (lib.hexError (String.ofList text))

namespace Address

def zero : Address := ⟨List.replicate 20 0, rfl⟩

def fromSlice (bytes : Bytes) : Except IdentityError Address :=
  if size : bytes.length = 20 then .ok ⟨bytes, size⟩ else .error (.invalidAddressLength bytes.length)

/-- The prefix may be missing, and it may have either case. -/
def ofHex (lib : Library) (text : List Char) : Except IdentityError Address :=
  let trimmed := ((stripPrefix ['0', 'x'] text).or (stripPrefix ['0', 'X'] text)).getD text
  match decodeHex lib trimmed with
  | .error e => .error (.hex e)
  | .ok bytes => fromSlice bytes

/-- A letter is raised when its nibble of the hash is at least eight. -/
def toChecksum (keccak256 : Bytes → Bytes) (address : Address) : List Char :=
  let lower := hexChars address.bytes
  let hash := keccak256 (utf8Chars lower)
  let raise (index : Nat) (char : Char) : Char :=
    let byte := (hash.getD (index / 2) 0).toNat
    let nibble := if index % 2 = 0 then byte / 16 else byte % 16
    if char.isAlpha && decide (8 ≤ nibble) then char.toUpper else char
  '0' :: 'x' :: lower.mapIdx raise

end Address

def PersonalSignature.toCompact (personal : PersonalSignature) : Bytes :=
  personal.r ++ personal.s ++ [personal.v]

def PersonalSignature.fromCompact (bytes : Bytes) : Except IdentityError PersonalSignature :=
  if size : bytes.length = 65 then
    let v := bytes.getD 64 0
    if v ≠ 27 ∧ v ≠ 28 then .error (.invalidSignature s!"v must be 27 or 28, got {v}")
    else
      .ok {
        r := bytes.take 32
        s := (bytes.drop 32).take 32
        v := v
        rSize := by simp [size]
        sSize := by simp [size]}
  else
    let got := bytes.length
    .error (.invalidSignature s!"expected 65 bytes, got {got}")

end A3Net.Identity
