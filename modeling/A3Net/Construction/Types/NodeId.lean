import A3Net.Machine.Text

namespace A3Net

open Cryptography Machine

def maxIdLen : Nat := 128

/-- Every error names the field. -/
inductive IdError where
  | empty (field : String)
  | tooLong (field : String) (got : Nat)
  | notAscii (field value : String)
  | controlByte (field : String) (byte : UInt8)

def validateId (field value : String) : Except IdError Unit :=
  let bytes := utf8 value
  if bytes.isEmpty then .error (.empty field)
  else if maxIdLen < bytes.length then .error (.tooLong field bytes.length)
  else if ¬ bytes.all (· < 0x80) then .error (.notAscii field value)
  else
    match bytes.find? fun byte => byte ≤ 0x20 ∨ byte = 0x7f with
    | some byte => .error (.controlByte field byte)
    | none => .ok ()


/-- An identifier that comes from the wire is whatever text the peer sent. -/
structure NodeId where
  text : List Char
deriving DecidableEq

namespace NodeId

def nodeIdBytes : Nat := 32

def hexLen : Nat := nodeIdBytes * 2

/-- The length of a text counts its bytes, and the error is the text of an invalid identifier. -/
def fromHex (text : List Char) : Except String NodeId :=
  let got := (utf8Chars text).length
  if got ≠ hexLen then .error s!"expected {hexLen} hex chars, got {got}"
  else if text.all fun char => (hexValue char).isSome then .ok ⟨asciiLower text⟩
  else .error (String.ofList text)

/-- A text that is not hexadecimal panics. -/
def asBytes (node : NodeId) : Option Bytes := bytesOfHexChars node.text

/-- A text that is not hexadecimal counts as no bytes, and missing bytes count as zero. -/
def xorDistance (node other : NodeId) : Bytes :=
  let a := (bytesOfHexChars node.text).getD []
  let b := (bytesOfHexChars other.text).getD []
  let len := max (max a.length b.length) nodeIdBytes
  (List.range len).map fun i => a.getD i 0 ^^^ b.getD i 0

end NodeId
end A3Net
