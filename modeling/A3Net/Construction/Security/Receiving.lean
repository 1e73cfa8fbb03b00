import A3Net.Construction.Security.Session
import A3Net.Machine.Table
import Mathlib.Data.UInt

namespace A3Net.Security

open Cryptography Machine

/-- The cipher library opens what it has sealed, and it refuses the rest. -/
structure OpeningCipher extends Aes256Gcm where
  decrypt : Bytes → Bytes → Bytes → Option Bytes

def nonceSize : Nat := 12

def decryptAead (cipher : OpeningCipher) (ciphertext key : Bytes) : Except SecurityError Bytes :=
  if ciphertext.length < nonceSize then .error (.decryptionFailed "Ciphertext too short")
  else if key.length ≠ keySize then .error (.decryptionFailed cipher.invalidLength)
  else
    match cipher.decrypt key (ciphertext.take nonceSize) (ciphertext.drop nonceSize) with
    | some plaintext => .ok plaintext
    | none => .error (.decryptionFailed cipher.failure)

/-- No function of a session reads this bound. -/
structure SessionConfig where
  maxSkippedMessages : Nat := 100

/-- These are the fields of a session and of its keys that receiving needs beside those of the
sending side. -/
structure ReceivingSession extends Session where
  config : SessionConfig := {}
  receiveMessageNumber : UInt64 := 0
  skippedKeys : Table UInt64 Bytes := ∅

namespace ReceivingSession

variable (session : ReceivingSession)

/-- The number wraps around. -/
def countReceived : ReceivingSession :=
  {session with
    toSession := session.toSession.advanceChainKey
    receiveMessageNumber := session.receiveMessageNumber + 1}

/-- The key of the next message is put aside. -/
def skipKey : ReceivingSession :=
  let skippedKey := deriveMessageKey session.keyState.chainKey session.receiveMessageNumber
  {session with
    skippedKeys := session.skippedKeys.insert session.receiveMessageNumber skippedKey}.countReceived

/-- The loop of `decrypt` stops at the number of the message. -/
def skipKeys (messageNumber : UInt64) : Nat → ReceivingSession → ReceivingSession
  | 0, session => session
  | rounds + 1, session =>
    if session.receiveMessageNumber < messageNumber then
      skipKeys messageNumber rounds session.skipKey
    else session

/-- The loop has as many rounds as the message is ahead. -/
def skipTo (messageNumber : UInt64) (session : ReceivingSession) : ReceivingSession :=
  session.skipKeys messageNumber (messageNumber.toNat - session.receiveMessageNumber.toNat)

def decrypt (cipher : OpeningCipher) (now : Int) (session : ReceivingSession)
    (msg : EncryptedMessage) : Except SecurityError Bytes × ReceivingSession :=
  if session.state ≠ .active then (.error (.sessionError "Session is not active"), session)
  else
    match session.skippedKeys.lookup msg.messageNumber with
    | some skippedKey =>
      (decryptAead cipher msg.ciphertext skippedKey,
        {session with skippedKeys := session.skippedKeys.erase msg.messageNumber})
    | none =>
      let skipped := session.skipTo msg.messageNumber
      let messageKey := deriveMessageKey skipped.keyState.chainKey skipped.receiveMessageNumber
      match decryptAead cipher msg.ciphertext messageKey with
      | .error error => (.error error, skipped)
      | .ok plaintext => (.ok plaintext, {skipped.countReceived with lastUsed := now})

end ReceivingSession

/-- A sender encrypts its plaintexts one after the other. -/
def Session.encryptAll (cipher : Aes256Gcm) (session : Session) :
    List (Surroundings × Bytes) → List (Except SecurityError EncryptedMessage) × Session
  | [] => ([], session)
  | (around, plaintext) :: rest =>
    let (result, next) := session.encrypt cipher around plaintext
    let (results, last) := next.encryptAll cipher rest
    (result :: results, last)

/-- A receiver decrypts its messages one after the other, each at its own time. -/
def ReceivingSession.decryptAll (cipher : OpeningCipher) (session : ReceivingSession) :
    List (Int × EncryptedMessage) → List (Except SecurityError Bytes) × ReceivingSession
  | [] => ([], session)
  | (now, msg) :: rest =>
    let (result, next) := session.decrypt cipher now msg
    let (results, last) := next.decryptAll cipher rest
    (result :: results, last)

end A3Net.Security
