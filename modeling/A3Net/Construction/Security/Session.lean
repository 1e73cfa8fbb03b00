import A3Net.Cryptography.Blake3
import A3Net.Cryptography.Encoding
import A3Net.Machine.Json

namespace A3Net.Security

open Cryptography Machine

inductive SecurityError where
  | sessionError (reason : String)
  | encryptionFailed (reason : String)
  | decryptionFailed (reason : String)
  | invalidConfig (reason : String)
  | internal (reason : String)
deriving DecidableEq

inductive SessionState where
  | active | paused | terminated | expired
deriving DecidableEq

structure EncryptedMessage where
  sessionId : String
  ciphertext : Bytes
  nonce : Bytes
  messageNumber : UInt64
  previousHash : Option Bytes
  timestamp : Int
  metadata : List (String × Json)

def EncryptedMessage.new (sessionId : String) (ciphertext nonce : Bytes) (messageNumber : UInt64)
    (now : Int) : EncryptedMessage where
  sessionId := sessionId
  ciphertext := ciphertext
  nonce := nonce
  messageNumber := messageNumber
  previousHash := none
  timestamp := now
  metadata := []

structure KeyState where
  chainKey : Bytes
  sendMessageNumber : UInt64

structure Session where
  id : String
  state : SessionState
  keyState : KeyState
  lastUsed : Int

/-- The cipher library seals a plaintext under a key and a nonce. It has two error texts. -/
structure Aes256Gcm where
  encrypt : Bytes → Bytes → Bytes → Bytes
  invalidLength : String
  failure : String

/-- The random nonce and the two readings of the clock of a call. -/
structure Surroundings where
  nonce : Bytes
  usedAt : Int
  stampedAt : Int

def deriveMessageKey (chainKey : Bytes) (messageNumber : UInt64) : Bytes :=
  (blake3 (chainKey ++ littleEndian 8 messageNumber.toNat ++ [2])).bytes

/-- The library takes keys of this many bytes. -/
def keySize : Nat := 32

/-- The library refuses a longer plaintext. -/
def plaintextLimit : Nat := 2 ^ 36

def encryptAead (cipher : Aes256Gcm) (nonce plaintext key : Bytes) : Except SecurityError Bytes :=
  if key.length ≠ keySize then .error (.encryptionFailed cipher.invalidLength)
  else if plaintextLimit < plaintext.length then .error (.encryptionFailed cipher.failure)
  else .ok (nonce ++ cipher.encrypt key nonce plaintext)

def blake3Hash (data : Bytes) : Bytes := (blake3 data).bytes

namespace Session

def advanceChainKey (session : Session) : Session :=
  {session with keyState := {session.keyState with
    chainKey := (blake3 (session.keyState.chainKey ++ [1])).bytes}}

/-- The number wraps around. -/
def countSent (session : Session) (now : Int) : Session :=
  {session with
    keyState := {session.keyState with
      sendMessageNumber := session.keyState.sendMessageNumber + 1}
    lastUsed := now}

def encrypt (cipher : Aes256Gcm) (around : Surroundings) (session : Session) (plaintext : Bytes) :
    Except SecurityError EncryptedMessage × Session :=
  if session.state ≠ .active then (.error (.sessionError "Session is not active"), session)
  else
    let messageKey :=
      deriveMessageKey session.keyState.chainKey session.keyState.sendMessageNumber
    match encryptAead cipher around.nonce plaintext messageKey with
    | .error error => (.error error, session)
    | .ok ciphertext =>
      let advanced := session.advanceChainKey
      let messageNumber := advanced.keyState.sendMessageNumber
      let msg :=
        EncryptedMessage.new advanced.id ciphertext [] messageNumber around.stampedAt
      (.ok {msg with previousHash := some (blake3Hash plaintext)},
        advanced.countSent around.usedAt)

end Session
end A3Net.Security
