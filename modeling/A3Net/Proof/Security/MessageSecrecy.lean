import A3Net.Construction.Security.Session

namespace A3Net.Security

open Cryptography

/-- This is what an observer sees who cannot read the ciphertext. -/
def EncryptedMessage.visible (msg : EncryptedMessage) : EncryptedMessage :=
  {msg with ciphertext := []}

namespace Session

/-- The messages for two plaintexts agree in every field but the ciphertext. -/
def Hides (cipher : Aes256Gcm) (around : Surroundings) (session : Session)
    (first second : Bytes) : Prop :=
  ∀ one other, (session.encrypt cipher around first).1 = .ok one →
    (session.encrypt cipher around second).1 = .ok other → one.visible = other.visible

/-- This is what `encrypt` returns in an active session. -/
def sealedMessage (cipher : Aes256Gcm) (around : Surroundings) (session : Session)
    (plaintext : Bytes) : EncryptedMessage where
  sessionId := session.id
  ciphertext := around.nonce ++ cipher.encrypt
    (deriveMessageKey session.keyState.chainKey session.keyState.sendMessageNumber)
    around.nonce plaintext
  nonce := []
  messageNumber := session.keyState.sendMessageNumber
  previousHash := some (blake3Hash plaintext)
  timestamp := around.stampedAt
  metadata := []

variable (cipher : Aes256Gcm) (around : Surroundings)

theorem encrypt_active {session : Session} (active : session.state = .active) (plaintext : Bytes) :
    (session.encrypt cipher around plaintext).1 =
      if plaintextLimit < plaintext.length then .error (.encryptionFailed cipher.failure)
      else .ok (session.sealedMessage cipher around plaintext) := by
  have sized : (deriveMessageKey session.keyState.chainKey
      session.keyState.sendMessageNumber).length = keySize := (blake3 _).size
  rw [encrypt, if_neg (not_not_intro active)]
  by_cases tooLong : plaintextLimit < plaintext.length
  · simp only [encryptAead, sized, tooLong, ne_eq, not_true_eq_false, if_false, if_true]
  · simp only [encryptAead, sized, tooLong, ne_eq, not_true_eq_false, if_false]
    rfl

/-- The hash is the only field that depends on the plaintext. -/
theorem sealedMessage_visible_iff (session : Session) {first second : Bytes} :
    (session.sealedMessage cipher around first).visible =
      (session.sealedMessage cipher around second).visible ↔ blake3 first = blake3 second := by
  constructor
  · intro equal
    have hashes := congrArg EncryptedMessage.previousHash equal
    exact Digest.bytes_injective (Option.some.inj hashes)
  · intro equal
    unfold EncryptedMessage.visible sealedMessage blake3Hash
    rw [equal]

/-- A message of an active session shows whether its plaintext is a guessed one. -/
theorem encrypt_hides_iff (session : Session) (first second : Bytes)
    (lengths : first.length = second.length) :
    session.Hides cipher around first second ↔
      session.state ≠ .active ∨ plaintextLimit < first.length ∨ first = second ∨
        ¬ Resists blake3 first second := by
  by_cases active : session.state = .active
  · by_cases tooLong : plaintextLimit < first.length
    · have refused := encrypt_active cipher around active first
      simp [Hides, refused, tooLong]
    · have sealedFirst := encrypt_active cipher around active first
      have sealedSecond := encrypt_active cipher around active second
      rw [if_neg tooLong] at sealedFirst
      rw [← lengths, if_neg tooLong] at sealedSecond
      have visible : session.Hides cipher around first second ↔
          (session.sealedMessage cipher around first).visible =
            (session.sealedMessage cipher around second).visible := by
        unfold Hides
        rw [sealedFirst, sealedSecond]
        constructor
        · intro hides
          exact hides _ _ rfl rfl
        · intro equal one other oneSealed otherSealed
          cases oneSealed
          cases otherSealed
          exact equal
      rw [visible, sealedMessage_visible_iff, hash_eq_iff]
      simp [active, tooLong]
  · simp [Hides, encrypt, active]

/-- The cipher of the samples keeps the plaintext. -/
def sampleCipher : Aes256Gcm := ⟨fun _ _ plaintext => plaintext, "Invalid Length", "aead::Error"⟩

def sampleSurroundings : Surroundings := ⟨List.replicate 12 0, 0, 0⟩

def sampleSession : Session := ⟨"s", .active, ⟨List.replicate 32 0, 0⟩, 0⟩

theorem encrypt_hides_sample :
    ([0] : Bytes).length = ([1] : Bytes).length ∧
      (sampleSession.Hides sampleCipher sampleSurroundings [0] [1] ↔
        sampleSession.state ≠ .active ∨ plaintextLimit < ([0] : Bytes).length ∨ ([0] : Bytes) = [1] ∨
          ¬ Resists blake3 [0] [1]) :=
  ⟨rfl, encrypt_hides_iff sampleCipher sampleSurroundings sampleSession [0] [1] rfl⟩

/-- Two plaintexts of one byte are told apart without the key. -/
theorem encrypt_shows_plaintext :
    ¬ ∀ (cipher : Aes256Gcm) (around : Surroundings) (session : Session) (first second : Bytes),
      first.length = second.length → session.Hides cipher around first second := by
  intro hides
  have sealed := fun plaintext => encrypt_active sampleCipher sampleSurroundings
    (rfl : sampleSession.state = .active) plaintext
  have visible := hides sampleCipher sampleSurroundings sampleSession [0] [1] rfl _ _ (sealed [0])
    (sealed [1])
  have digests := (sealedMessage_visible_iff _ _ _).mp visible
  exact absurd digests (by decide +kernel)

end Session
end A3Net.Security
