/-
This file gives the BLAKE3 hash in its unkeyed mode, with 32 bytes of output, and what
an ideal signature of a digest binds.
-/

import A3Net.Cryptography.Bytes

namespace A3Net.Cryptography.Blake3

abbrev Word := BitVec 32

def initialValue : List Word :=
  [0x6A09E667, 0xBB67AE85, 0x3C6EF372, 0xA54FF53A, 0x510E527F, 0x9B05688C, 0x1F83D9AB, 0x5BE0CD19]

def messagePermutation : List Nat := [2, 6, 3, 10, 7, 0, 4, 13, 1, 11, 12, 5, 9, 14, 15, 8]

/-- The columns come before the diagonals. -/
def lanes : List (Nat × Nat × Nat × Nat) :=
  [(0, 4, 8, 12), (1, 5, 9, 13), (2, 6, 10, 14), (3, 7, 11, 15),
    (0, 5, 10, 15), (1, 6, 11, 12), (2, 7, 8, 13), (3, 4, 9, 14)]

/-- One quarter round mixes two message words into four state words. -/
def quarterRound (state : List Word) (a b c d : Nat) (x y : Word) : List Word :=
  let wordA := state.getD a 0 + state.getD b 0 + x
  let wordD := (state.getD d 0 ^^^ wordA).rotateRight 16
  let wordC := state.getD c 0 + wordD
  let wordB := (state.getD b 0 ^^^ wordC).rotateRight 12
  let wordA := wordA + wordB + y
  let wordD := (wordD ^^^ wordA).rotateRight 8
  let wordC := wordC + wordD
  let wordB := (wordB ^^^ wordC).rotateRight 7
  (((state.set a wordA).set b wordB).set c wordC).set d wordD

def mixLanes (msg : List Word) : Nat → List (Nat × Nat × Nat × Nat) → List Word → List Word
  | _, [], state => state
  | index, (a, b, c, d) :: rest, state =>
    mixLanes msg (index + 2) rest
      (quarterRound state a b c d (msg.getD index 0) (msg.getD (index + 1) 0))

def rounds : Nat → List Word → List Word → List Word
  | 0, _, state => state
  | count + 1, msg, state =>
    rounds count (messagePermutation.map (msg.getD · 0)) (mixLanes msg 0 lanes state)

def compress (chain msg : List Word) (counter length flags : Nat) : List Word :=
  let state := rounds 7 msg (chain ++ initialValue.take 4 ++
    [BitVec.ofNat 32 counter, BitVec.ofNat 32 (counter / 2 ^ 32),
      BitVec.ofNat 32 length, BitVec.ofNat 32 flags])
  (state.take 8).zipWith (· ^^^ ·) (state.drop 8)

def wordOfBytes : Bytes → Word
  | a :: b :: c :: d :: _ =>
    BitVec.ofNat 32 (a.toNat + b.toNat * 2 ^ 8 + c.toNat * 2 ^ 16 + d.toNat * 2 ^ 24)
  | _ => 0

def bytesOfWord (word : Word) : Bytes :=
  [UInt8.ofNat word.toNat, UInt8.ofNat (word.toNat / 2 ^ 8),
    UInt8.ofNat (word.toNat / 2 ^ 16), UInt8.ofNat (word.toNat / 2 ^ 24)]

def wordsOfBytes : Nat → Bytes → List Word
  | 0, _ => []
  | count + 1, bytes => wordOfBytes bytes :: wordsOfBytes count (bytes.drop 4)

/-- A short block is filled with zero bytes. -/
def blockWords (bytes : Bytes) : List Word :=
  wordsOfBytes 16 (bytes ++ List.replicate (64 - bytes.length) 0)

def chunkStart : Nat := 1
def chunkEnd : Nat := 2
def parentFlag : Nat := 4
def rootFlag : Nat := 8

def chunkBlocks (counter root : Nat) : Nat → List Word → Nat → Bytes → List Word
  | 0, chain, _, _ => chain
  | blocks + 1, chain, start, bytes =>
    if bytes.length ≤ 64 then
      compress chain (blockWords bytes) counter bytes.length (start + chunkEnd + root)
    else
      chunkBlocks counter root blocks
        (compress chain (blockWords (bytes.take 64)) counter 64 start) 0 (bytes.drop 64)

/-- A chunk holds at most sixteen blocks of 64 bytes. -/
def chunkValue (counter root : Nat) (bytes : Bytes) : List Word :=
  chunkBlocks counter root 16 initialValue chunkStart bytes

/-- The left subtree holds the greatest power of two of chunks that leaves one for the right. -/
def leftChunks (count : Nat) : Nat := 2 ^ (count - 1).log2

def subtree : Nat → Nat → Nat → Bytes → List Word
  | 0, counter, root, bytes => chunkValue counter root bytes
  | depth + 1, counter, root, bytes =>
    if bytes.length ≤ 1024 then chunkValue counter root bytes
    else
      let left := leftChunks ((bytes.length + 1023) / 1024)
      compress initialValue
        (subtree depth counter 0 (bytes.take (1024 * left)) ++
          subtree depth (counter + left) 0 (bytes.drop (1024 * left)))
        0 64 (parentFlag + root)

theorem mixLanes_length (msg : List Word) (index : Nat) (rest : List (Nat × Nat × Nat × Nat))
    (state : List Word) : (mixLanes msg index rest state).length = state.length := by
  induction rest generalizing index state with
  | nil => rfl
  | cons lane rest ih =>
    rw [mixLanes, ih]
    simp [quarterRound]

theorem rounds_length (count : Nat) (msg state : List Word) :
    (rounds count msg state).length = state.length := by
  induction count generalizing msg state with
  | zero => rfl
  | succ count ih => rw [rounds, ih, mixLanes_length]

theorem compress_length {chain msg : List Word} {counter length flags : Nat}
    (chainLength : chain.length = 8) :
    (compress chain msg counter length flags).length = 8 := by
  simp [compress, rounds_length, chainLength, initialValue]

theorem chunkBlocks_length (counter root blocks start : Nat) (chain : List Word) (bytes : Bytes)
    (chainLength : chain.length = 8) :
    (chunkBlocks counter root blocks chain start bytes).length = 8 := by
  induction blocks generalizing chain start bytes with
  | zero => exact chainLength
  | succ blocks ih =>
    unfold chunkBlocks
    split
    · exact compress_length chainLength
    · exact ih _ _ _ (compress_length chainLength)

theorem subtree_length (depth counter root : Nat) (bytes : Bytes) :
    (subtree depth counter root bytes).length = 8 := by
  cases depth with
  | zero => exact chunkBlocks_length _ _ _ _ _ _ rfl
  | succ depth =>
    unfold subtree
    split
    · exact chunkBlocks_length _ _ _ _ _ _ rfl
    · exact compress_length rfl

theorem flatMap_bytesOfWord_length (words : List Word) :
    (words.flatMap bytesOfWord).length = 4 * words.length := by
  induction words with
  | nil => rfl
  | cons word rest ih =>
    simp only [List.flatMap_cons, List.length_append, ih, bytesOfWord, List.length_cons,
      List.length_nil]
    omega

end Blake3

/-- A digest has 32 bytes. -/
structure Digest where
  bytes : Bytes
  size : bytes.length = 32

theorem Digest.bytes_injective : Function.Injective Digest.bytes := by
  rintro ⟨first, _⟩ ⟨second, _⟩ equal
  cases equal
  rfl

instance : DecidableEq Digest := fun first second =>
  decidable_of_iff (first.bytes = second.bytes) Digest.bytes_injective.eq_iff

/-- The tree over the chunks gives the digest; its depth is at most the bit length of the input. -/
def blake3 (bytes : Bytes) : Digest where
  bytes := (Blake3.subtree (bytes.length.log2 + 1) 0 Blake3.rootFlag bytes).flatMap
    Blake3.bytesOfWord
  size := by rw [Blake3.flatMap_bytesOfWord_length, Blake3.subtree_length]

/-- Two inputs do not collide when equal digests force equal inputs. -/
def Resists (hash : Bytes → Digest) (first second : Bytes) : Prop :=
  hash first = hash second → first = second

/-- Equal digests mean equal inputs or a collision. -/
theorem hash_eq_iff {hash : Bytes → Digest} {first second : Bytes} :
    hash first = hash second ↔ first = second ∨ ¬ Resists hash first second := by
  constructor
  · intro equal
    by_cases same : first = second
    · exact Or.inl same
    · exact Or.inr fun resists => same (resists equal)
  · intro either
    rcases either with same | collision
    · rw [same]
    · exact (Classical.not_imp.mp collision).1

variable {Signer Signature : Type*} {accepts : Signer → Bytes → Signature → Prop}

/-- A signature of a signer is a signature of one message only. -/
def Ideal (accepts : Signer → Bytes → Signature → Prop) : Prop :=
  ∀ signer sig first second, accepts signer first sig → accepts signer second sig → first = second

/-- A signed digest binds the hashed bytes. -/
theorem Ideal.hashed (ideal : Ideal accepts) {hash : Bytes → Digest} {first second : Bytes}
    (resists : Resists hash first second) {signer : Signer} {sig : Signature}
    (one : accepts signer (hash first).bytes sig)
    (other : accepts signer (hash second).bytes sig) : first = second := by
  apply resists
  apply Digest.bytes_injective
  exact ideal signer sig _ _ one other


end A3Net.Cryptography
