import A3Net.Cryptography.Noise

namespace A3Net.ChatCrypto

open Cryptography

inductive CryptoError where
  | aeadTagMismatch
  | noiseHandshake (text : String)
  | invalidLength (field : String) (expected actual : Nat)
  | senderKeyExhausted (id : Bytes) (iteration : UInt32)
  | internal (text : String)

def handshakeKind : String := "noise-xx"

def noiseName : String := "Noise_XX_25519_ChaChaPoly_SHA256"

def sessionInfo : Bytes := utf8 "a3chat/dm/session/v1"

def dirInfo : Bytes := utf8 "a3chat/dm/session/v1/dir"

structure HandshakeMessage where
  kind : String
  payload : Bytes

structure SessionKey where
  bytes : Bytes
  size : bytes.length = 32

structure SessionKeys where
  send : SessionKey
  recv : SessionKey

/-- The library of the key derivation has a keyed hash and the text of its only error. -/
structure Kdf where
  hmac : Hmac
  invalidLength : String

variable (kdf : Kdf)

def hkdfDirection (input : Bytes) : Except CryptoError SessionKey :=
  let key := Hkdf.extract kdf.hmac none input
  match expanded : Hkdf.expand kdf.hmac key dirInfo 32 with
  | none =>
    let text := kdf.invalidLength
    .error (.internal s!"hkdf direction: {text}")
  | some output => .ok ⟨output, Hkdf.expand_length kdf.hmac expanded⟩

/-- The initiator writes with the first half, and the responder reads with it. -/
def SessionKeys.fromSharedSecret (secret : Bytes) (initiator : Bool) :
    Except CryptoError SessionKeys :=
  let key := Hkdf.extract kdf.hmac none secret
  match Hkdf.expand kdf.hmac key sessionInfo 64 with
  | none =>
    let text := kdf.invalidLength
    .error (.internal s!"hkdf: {text}")
  | some output => do
      let front := output.take 32
      let back := output.drop 32
      let (send, recv) := if initiator then (front, back) else (back, front)
      let send ← hkdfDirection kdf send
      let recv ← hkdfDirection kdf recv
      return ⟨send, recv⟩

variable {State : Type} (api : Noise.Api State)

def noiseError {α : Type} (result : Except String α) : Except CryptoError α :=
  result.mapError .noiseHandshake

/-- The static key is drawn anew for each handshake. -/
def handshakeInitiator (static : Bytes) : Except CryptoError State :=
  noiseError (api.buildInitiator noiseName static)

def handshakeResponder (static : Bytes) : Except CryptoError State :=
  noiseError (api.buildResponder noiseName static)

variable (state : State)

def initiatorFirstMessage (random : Bytes) : Except CryptoError (HandshakeMessage × State) := do
  let (payload, state) ← noiseError (api.writeMessage state [] 96 random)
  return (⟨handshakeKind, payload⟩, state)

/-- The payload of the first message is dropped. -/
def responderSecondMessage (first : HandshakeMessage) (random : Bytes) :
    Except CryptoError (HandshakeMessage × State) := do
  let (_, state) ← noiseError (api.readMessage state first.payload 96)
  let (payload, state) ← noiseError (api.writeMessage state [] 96 random)
  return (⟨handshakeKind, payload⟩, state)

/-- The secret is the front of the handshake hash, filled up with zeros. -/
def transportSecret : Bytes :=
  let front := (api.getHandshakeHash state).take 32
  front ++ List.replicate (32 - front.length) 0

def initiatorFinalMessage (second : HandshakeMessage) (random : Bytes) :
    Except CryptoError ((HandshakeMessage × Bytes) × State) := do
  let (_, state) ← noiseError (api.readMessage state second.payload 96)
  let (payload, state) ← noiseError (api.writeMessage state [] 96 random)
  return ((⟨handshakeKind, payload⟩, transportSecret api state), state)

end A3Net.ChatCrypto
