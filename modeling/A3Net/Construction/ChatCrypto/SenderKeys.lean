import A3Net.Construction.ChatCrypto.Session
import A3Net.Cryptography.Encoding
import Mathlib.Data.UInt

namespace A3Net.ChatCrypto

open Cryptography

structure SenderKeyId where
  bytes : Bytes
  size : bytes.length = 16

/-- Chain keys and message keys have 32 bytes. -/
@[ext]
structure SecretBytes where
  bytes : Bytes
  size : bytes.length = 32

instance : DecidableEq SecretBytes := fun _ _ => decidable_of_iff _ SecretBytes.ext_iff.symm

/-- The cipher library refuses a plaintext above its limit. -/
structure ChaCha20Poly1305 where
  encrypt : (key nonce ad plaintext : Bytes) → Bytes
  decrypt : (key nonce ad sealed : Bytes) → Option Bytes
  limit : Nat

/-- The provider keeps one secret under each label, or it fails with a text. -/
structure KeyProvider where
  derive : String → Except String SecretBytes

structure SenderKey where
  id : SenderKeyId
  chainKey : SecretBytes
  iteration : UInt32
  maxIterations : UInt32

def SenderKey.fromBytes (id : SenderKeyId) (chainKey : SecretBytes) : SenderKey :=
  ⟨id, chainKey, 0, 100000⟩

structure SenderKeyChain where
  id : SenderKeyId
  chainKey : SecretBytes
  iteration : UInt32

def messageKeyInfo : Bytes := utf8 "a3chat/sk/message_key/v1"

def nextChainInfo : Bytes := utf8 "a3chat/sk/next_chain/v1"

variable (kdf : Kdf)

/-- The name of the key is a part of the error text. -/
def expandSecret (name : String) (info : Bytes) (chainKey : SecretBytes) :
    Except CryptoError SecretBytes :=
  match expanded : Hkdf.expand kdf.hmac (Hkdf.extract kdf.hmac none chainKey.bytes) info 32 with
  | none =>
    let text := kdf.invalidLength
    .error (.internal s!"hkdf {name}: {text}")
  | some output => .ok ⟨output, Hkdf.expand_length kdf.hmac expanded⟩

namespace SenderKeyChain

def new (key : SenderKey) : SenderKeyChain := ⟨key.id, key.chainKey, key.iteration⟩

variable (chain : SenderKeyChain)

/-- The message key and the next chain key come from one chain key. -/
def keys : Except CryptoError (SecretBytes × SecretBytes) := do
  let messageKey ← expandSecret kdf "mk" messageKeyInfo chain.chainKey
  let nextChain ← expandSecret kdf "next" nextChainInfo chain.chainKey
  return (messageKey, nextChain)

def advance (nextChain : SecretBytes) : SenderKeyChain :=
  {chain with chainKey := nextChain, iteration := chain.iteration + 1}

variable (cipher : ChaCha20Poly1305)

def sealNext (nonce : Bytes) (chain : SenderKeyChain)
    (ad plaintext : Bytes) : Except CryptoError (UInt32 × Bytes) × SenderKeyChain :=
  if 100000 ≤ chain.iteration then
    (.error (.senderKeyExhausted chain.id.bytes chain.iteration), chain)
  else
    match chain.keys kdf with
    | .error error => (.error error, chain)
    | .ok (messageKey, nextChain) =>
      if cipher.limit < plaintext.length then (.error .aeadTagMismatch, chain)
      else
        let sealed := cipher.encrypt messageKey.bytes nonce ad plaintext
        (.ok (chain.iteration, littleEndian 4 chain.iteration.toNat ++ nonce ++ sealed),
          chain.advance nextChain)

def openNext (chain : SenderKeyChain) (ad blob : Bytes)
    (expectedIteration : UInt32) : Except CryptoError Bytes × SenderKeyChain :=
  if blob.length < 4 + 12 + 16 then
    (.error (.invalidLength "sender_key blob" 32 blob.length), chain)
  else if expectedIteration ≠ chain.iteration then
    (.error (.senderKeyExhausted chain.id.bytes expectedIteration), chain)
  else
    match chain.keys kdf with
    | .error error => (.error error, chain)
    | .ok (messageKey, nextChain) =>
      match cipher.decrypt messageKey.bytes ((blob.drop 4).take 12) ad (blob.drop 16) with
      | none => (.error .aeadTagMismatch, chain)
      | some plaintext => (.ok plaintext, chain.advance nextChain)

end SenderKeyChain

def senderKeyLabelPrefix : String := "a3chat/sk/v1"

def labelFor (owner conversation : String) (chainId : SenderKeyId) : String :=
  let hex := toHex chainId.bytes
  s!"{senderKeyLabelPrefix}/{owner}/{conversation}/{hex}"

/-- The chain starts again at the secret of its label. -/
def load (provider : KeyProvider) (owner conversation : String) (chainId : SenderKeyId) :
    Except CryptoError SenderKeyChain :=
  match provider.derive (labelFor owner conversation chainId) with
  | .error text => .error (.internal s!"a3net key_provider: {text}")
  | .ok secret => .ok (.new (.fromBytes chainId secret))

end A3Net.ChatCrypto
