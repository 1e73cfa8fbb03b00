import A3Net.Machine.Run
import A3Net.Proof.Security.OutOfOrder

namespace A3Net.Security

open Cryptography Machine List

/-- A message comes from the peer, who knows its plaintext, or from an attacker. -/
inductive Arrival where
  | genuine (now : Int) (message : EncryptedMessage) (plaintext : Bytes)
  | forged (now : Int) (message : EncryptedMessage)

namespace Arrival

def message : Arrival → EncryptedMessage
  | .genuine _ message _ => message
  | .forged _ message => message

/-- These are the numbers of the genuine messages. -/
def genuineNumber : Arrival → Option UInt64
  | .genuine _ message _ => some message.messageNumber
  | .forged _ _ => none

end Arrival

namespace ReceivingSession

variable (cipher : OpeningCipher) (session : ReceivingSession)

def arrive : Arrival → ReceivingSession
  | .genuine now message _ => (session.decrypt cipher now message).2
  | .forged now message => (session.decrypt cipher now message).2

def storedKeys : Nat := session.skippedKeys.entries.length

/-- A forged message fails its authentication. -/
def Rejects : Arrival → Prop
  | .genuine _ _ _ => True
  | .forged now message => ∃ error, (session.decrypt cipher now message).1 = .error error

/-- A forged message names no key that is put aside, and there is room for the keys that a message
skips. -/
structure Harmless (bound : Nat) (session : ReceivingSession) (arrival : Arrival) : Prop where
  unnamed : arrival.genuineNumber = none →
    session.skippedKeys.lookup arrival.message.messageNumber = none
  room : session.receiveMessageNumber < arrival.message.messageNumber →
    session.storedKeys +
      (arrival.message.messageNumber.toNat - session.receiveMessageNumber.toNat) ≤ bound

variable {message : EncryptedMessage} {now : Int}

variable {base : Bytes} {delivered : List UInt64} {session}

variable {bound : Nat}

end ReceivingSession

/-- Genuine messages, each at most once, arrive among forged messages that fail their
authentication. The receiver starts without a key that is put aside. -/
structure Attack extends Exchange where
  arrivals : List Arrival
  genuine : ∀ now message plaintext, .genuine now message plaintext ∈ arrivals →
    (message, plaintext) ∈ toExchange.pairs
  once : (arrivals.filterMap Arrival.genuineNumber).Nodup
  unskipped : receiver.skippedKeys = ∅
  rejected : Guarded (ReceivingSession.arrive cipher) (ReceivingSession.Rejects cipher) receiver
    arrivals

namespace Attack

/-- This is the bound of the receiver's configuration. -/
def bound (attack : Attack) : Nat := attack.receiver.config.maxSkippedMessages

end Attack

end A3Net.Security
