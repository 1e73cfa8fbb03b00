import A3Net.Construction.ChatCrypto.Session
import A3Net.Machine.Fallible

namespace A3Net.ChatCrypto

open Cryptography Machine Noise List

variable {State : Type} (api : Api State) (kdf : Kdf)

/-- An initiator with some static key and some random bytes sends the first message, accepts the
second one, sends the last one and derives its keys. -/
structure Completes (first second final : HandshakeMessage) (keys : SessionKeys) : Prop where
  run : ∃ static random lastRandom start middle finished secret,
    handshakeInitiator api static = .ok start ∧
    initiatorFirstMessage api start random = .ok (first, middle) ∧
    initiatorFinalMessage api middle second lastRandom = .ok ((final, secret), finished) ∧
    SessionKeys.fromSharedSecret kdf secret true = .ok keys

/-- Two parties with these static keys and these random bytes exchange the three messages. -/
def handshake (initiator responder random answer lastRandom : Bytes) :
    Except CryptoError (HandshakeMessage × HandshakeMessage × HandshakeMessage × SessionKeys) := do
  let start ← handshakeInitiator api initiator
  let waiting ← handshakeResponder api responder
  let (first, middle) ← initiatorFirstMessage api start random
  let (second, _) ← responderSecondMessage api waiting first answer
  let ((final, secret), _) ← initiatorFinalMessage api middle second lastRandom
  let keys ← SessionKeys.fromSharedSecret kdf secret true
  return (first, second, final, keys)

/-- No function of the three messages gives the keys of every completed handshake. -/
def Secret : Prop :=
  ¬ ∃ compute : HandshakeMessage → HandshakeMessage → HandshakeMessage → Option SessionKeys,
    ∀ first second final keys, Completes api kdf first second final keys →
      compute first second final = some keys

/-- An eavesdropper hashes what it saw and derives the keys as the initiator does. -/
def eavesdrop (publicHash : String → List Bytes → Bytes)
    (first second final : HandshakeMessage) : Option SessionKeys :=
  let front := (publicHash noiseName [first.payload, second.payload, final.payload]).take 32
  let secret := front ++ replicate (32 - front.length) 0
  (SessionKeys.fromSharedSecret kdf secret true).toOption

section Transcript

variable {api kdf}

theorem noiseError_ok_iff {α : Type} {result : Except String α} {value : α} :
    noiseError result = .ok value ↔ result = .ok value := by
  cases result <;> simp [noiseError, Except.mapError]

variable {publicHash : String → List Bytes → Bytes} {messages : List Bytes} {keys : SessionKeys}
  {first : HandshakeMessage} {random : Bytes} {next state : State}

/-- The first message continues the transcript of the initiator. -/
theorem initiatorFirstMessage_transcript (before : Transcript api noiseName state messages)
    (sent : initiatorFirstMessage api state random = .ok (first, next)) :
    Transcript api noiseName next (messages ++ [first.payload]) := by
  obtain ⟨⟨payload, last⟩, written, equal⟩ := bind_ok_iff.mp sent
  cases equal
  exact before.write (noiseError_ok_iff.mp written)

variable {final second : HandshakeMessage}

/-- The last step of the initiator reads a message, writes a message and takes the hash. -/
theorem initiatorFinalMessage_transcript {secret : Bytes}
    (before : Transcript api noiseName state messages)
    (sent : initiatorFinalMessage api state second random = .ok ((final, secret), next)) :
    Transcript api noiseName next (messages ++ [second.payload] ++ [final.payload]) ∧
      secret = transportSecret api next := by
  obtain ⟨⟨echoed, middle⟩, received, sent⟩ := bind_ok_iff.mp sent
  obtain ⟨⟨payload, last⟩, written, equal⟩ := bind_ok_iff.mp sent
  cases equal
  exact ⟨(before.read (noiseError_ok_iff.mp received)).write (noiseError_ok_iff.mp written), rfl⟩

/-- The eavesdropper has the keys of every completed handshake. -/
theorem Completes.eavesdrop_eq (known : PublicHash api publicHash)
    (completes : Completes api kdf first second final keys) :
    eavesdrop kdf publicHash first second final = some keys := by
  obtain ⟨static, random, lastRandom, start, middle, finished, secret, built, sent, finalSent,
    derived⟩ := completes.run
  have begun : Transcript api noiseName start [] := .initiator (noiseError_ok_iff.mp built)
  obtain ⟨transcript, taken⟩ := initiatorFinalMessage_transcript
    (initiatorFirstMessage_transcript begun sent) finalSent
  have hash := known noiseName finished _ transcript
  have same : transportSecret api finished =
      (publicHash noiseName [first.payload, second.payload, final.payload]).take 32 ++
        replicate (32 - ((publicHash noiseName
          [first.payload, second.payload, final.payload]).take 32).length) 0 := by
    rw [transportSecret, hash]
    rfl
  rw [eavesdrop, ← same, ← taken, derived]
  rfl

theorem handshake_completes {initiator responder answer lastRandom : Bytes}
    (exchanged : handshake api kdf initiator responder random answer lastRandom =
      .ok (first, second, final, keys)) : Completes api kdf first second final keys := by
  obtain ⟨start, built, exchanged⟩ := bind_ok_iff.mp exchanged
  obtain ⟨_, _, exchanged⟩ := bind_ok_iff.mp exchanged
  obtain ⟨⟨_, _⟩, sent, exchanged⟩ := bind_ok_iff.mp exchanged
  obtain ⟨⟨_, _⟩, _, exchanged⟩ := bind_ok_iff.mp exchanged
  obtain ⟨⟨⟨_, _⟩, _⟩, finalSent, exchanged⟩ := bind_ok_iff.mp exchanged
  obtain ⟨_, derived, equal⟩ := bind_ok_iff.mp exchanged
  cases equal
  exact ⟨_, _, _, _, _, _, _, built, sent, finalSent, derived⟩

theorem not_secret (known : PublicHash api publicHash) : ¬ Secret api kdf := by
  intro secret
  apply secret
  exact ⟨eavesdrop kdf publicHash, fun _ _ _ _ completes => completes.eavesdrop_eq known⟩

end Transcript

/-- A small number stands for all bytes. -/
def mark (bytes : Bytes) : UInt8 := bytes.foldl (fun sum byte => 3 * sum + byte + 1) 7

def sampleHmac : Hmac := ⟨fun key msg => replicate 32 (mark (key ++ msg)), by simp⟩

def sampleTag (key data plain : Bytes) : Bytes := replicate 16 (mark (key ++ data ++ plain))

def sampleMask (key : Bytes) (nonce : Nat) (bytes : Bytes) : Bytes :=
  bytes.map (· ^^^ mark (key ++ [nonce.toUInt8]))

/-- The sample has small keys. Both parties share their products, and a ciphertext has a mask and
a tag. -/
def sampleSuite : Suite where
  hash bytes := replicate 32 (mark bytes)
  hmac := sampleHmac
  publicKey key := replicate 32 (mark key)
  publicSize _ := length_replicate
  dh key other := [mark key * other.headD 0]
  encrypt key nonce data plain := sampleMask key nonce plain ++ sampleTag key data plain
  encryptSize := by simp [sampleMask, sampleTag]
  decrypt key nonce data cipher :=
    let plain := sampleMask key nonce (cipher.take (cipher.length - 16))
    if cipher.drop (cipher.length - 16) = sampleTag key data plain then some plain else none

def sampleKdf : Kdf := ⟨sampleHmac, "too long"⟩

theorem sample_exchanges :
    (handshake (xx sampleSuite) sampleKdf [1] [2] [3] [4] [5]).toOption.isSome := by
  decide +kernel

/-- With a public handshake hash an eavesdropper always computes the keys. -/
theorem session_never_secret (publicHash : String → List Bytes → Bytes)
    (known : PublicHash api publicHash) :
    (∀ first second final keys, Completes api kdf first second final keys →
      eavesdrop kdf publicHash first second final = some keys) ∧ ¬ Secret api kdf :=
  ⟨fun _ _ _ _ completes => completes.eavesdrop_eq known, not_secret known⟩

/-- Two honest parties complete a handshake, and the eavesdropper has its keys. -/
theorem session_never_secret_sample :
    ∃ first second final keys,
      handshake (xx sampleSuite) sampleKdf [1] [2] [3] [4] [5] = .ok (first, second, final, keys) ∧
      eavesdrop sampleKdf (View.publicHash sampleSuite) first second final = some keys := by
  have computed := (session_never_secret (xx sampleSuite) sampleKdf (View.publicHash sampleSuite)
    (xx_publicHash sampleSuite)).1
  have exchanges := sample_exchanges
  cases exchanged : handshake (xx sampleSuite) sampleKdf [1] [2] [3] [4] [5] with
  | error error =>
    rw [exchanged] at exchanges
    cases exchanges
  | ok messages =>
    obtain ⟨first, second, final, keys⟩ := messages
    exact ⟨first, second, final, keys, rfl, computed _ _ _ _ (handshake_completes exchanged)⟩

/-- The session is not secret when the handshake is `XX`. -/
theorem session_overheard :
    ¬ ∀ (State : Type) (api : Api State) (kdf : Kdf) (publicHash : String → List Bytes → Bytes),
      PublicHash api publicHash → Secret api kdf := by
  intro secret
  have known := xx_publicHash sampleSuite
  exact not_secret known (secret _ (xx sampleSuite) sampleKdf _ known)

end A3Net.ChatCrypto
