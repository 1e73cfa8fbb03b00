import A3Net.Cryptography.Blake3
import A3Net.Cryptography.Encoding

namespace A3Net.Integrity

open Cryptography

def domainTagV2 : Bytes := utf8 "a3net-integrity-v2"

/-- The length is cut to 32 bits. -/
def lenPrefixed (bytes : Bytes) : Bytes := littleEndian 4 bytes.length ++ bytes

def hashInput (fields : List Bytes) : Bytes := domainTagV2 ++ fields.flatMap lenPrefixed

variable (sha256 : Bytes → Digest)

def hashFields (fields : List Bytes) : List Char := hexChars (sha256 (hashInput fields)).bytes

/-- The arguments of each of the three hashes, in the order in which they are hashed. -/
structure Arguments where
  firstId : String
  secondId : String
  content : String
  sequence : UInt32
  timestamp : UInt64
deriving DecidableEq

variable (arguments : Arguments)

def Arguments.fields (scope : String) : List Bytes :=
  [utf8 scope, utf8 arguments.firstId, utf8 arguments.secondId, utf8 arguments.content,
    littleEndian 4 arguments.sequence.toNat, littleEndian 8 arguments.timestamp.toNat]

/-- The first identifier is the sender and the second one the receiver. -/
def directHash : List Char := hashFields sha256 (arguments.fields "direct")

/-- The first identifier is the group and the second one the sender. -/
def groupHash : List Char := hashFields sha256 (arguments.fields "group")

/-- The first identifier is the scope and the second one the author. -/
def postHash : List Char := hashFields sha256 (arguments.fields "post")

end A3Net.Integrity
