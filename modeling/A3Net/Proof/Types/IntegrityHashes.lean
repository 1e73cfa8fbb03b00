import A3Net.Construction.Types.Integrity

namespace A3Net.Integrity

open Cryptography List

def Short (fields : List Bytes) : Prop := ∀ field ∈ fields, field.length < 2 ^ 32

/-- The fields are read off again behind their lengths. -/
theorem flatMap_lenPrefixed_injective {fields others : List Bytes} (short : Short fields)
    (otherShort : Short others)
    (same : fields.flatMap lenPrefixed = others.flatMap lenPrefixed) : fields = others := by
  induction fields generalizing others with
  | nil =>
    cases others with
    | nil => rfl
    | cons other more => simp [lenPrefixed, littleEndian] at same
  | cons field rest ih =>
    cases others with
    | nil => simp [lenPrefixed, littleEndian] at same
    | cons other more =>
      obtain ⟨small, shortRest⟩ := forall_mem_cons.mp short
      obtain ⟨otherSmall, shortMore⟩ := forall_mem_cons.mp otherShort
      simp only [flatMap_cons, lenPrefixed, append_assoc] at same
      obtain ⟨rfl, later⟩ := framed_injective 4 (littleEndian 4) (littleEndian_length 4)
        (ofLittleEndian_littleEndian 4 small) (ofLittleEndian_littleEndian 4 otherSmall) same
      rw [ih shortRest shortMore later]

variable {sha256 : Bytes → Digest}

theorem hashFields_injective {fields others : List Bytes} (short : Short fields)
    (otherShort : Short others) (resists : Resists sha256 (hashInput fields) (hashInput others))
    (same : hashFields sha256 fields = hashFields sha256 others) : fields = others := by
  have digests : some (sha256 (hashInput fields)).bytes = some (sha256 (hashInput others)).bytes := by
    rw [← bytesOfHexChars_hexChars, ← bytesOfHexChars_hexChars]
    exact congrArg bytesOfHexChars same
  have inputs := resists (Digest.bytes_injective (Option.some.inj digests))
  exact flatMap_lenPrefixed_injective short otherShort (append_cancel_left inputs)

inductive IntegrityScope where
  | direct | group | post
deriving DecidableEq

namespace IntegrityScope

def text : IntegrityScope → String
  | .direct => "direct"
  | .group => "group"
  | .post => "post"

def hash (sha256 : Bytes → Digest) : IntegrityScope → Arguments → List Char
  | .direct => directHash sha256
  | .group => groupHash sha256
  | .post => postHash sha256

end IntegrityScope

/-- Two integrity hashes are equal only when they are the same function of the same arguments. -/
theorem integrity_hash_injective {scope other : IntegrityScope} {first second : Arguments}
    (short : Short (first.fields scope.text)) (otherShort : Short (second.fields other.text))
    (resists : Resists sha256 (hashInput (first.fields scope.text))
      (hashInput (second.fields other.text))) :
    scope.hash sha256 first = other.hash sha256 second ↔ scope = other ∧ first = second := by
  constructor
  · intro same
    have hashed : ∀ scope arguments, IntegrityScope.hash sha256 scope arguments =
        hashFields sha256 (arguments.fields scope.text) := by
      intro scope arguments
      cases scope <;> rfl
    rw [hashed, hashed] at same
    have fields := hashFields_injective short otherShort resists same
    simp only [Arguments.fields, cons.injEq, utf8_injective.eq_iff, and_true] at fields
    obtain ⟨scopes, firsts, seconds, contents, sequences, timestamps⟩ := fields
    have scopesEqual : scope = other := by
      revert scopes
      cases scope <;> cases other <;> decide
    have words := congrArg ofLittleEndian sequences
    rw [ofLittleEndian_littleEndian 4 first.sequence.toNat_lt,
      ofLittleEndian_littleEndian 4 second.sequence.toNat_lt] at words
    have times := congrArg ofLittleEndian timestamps
    rw [ofLittleEndian_littleEndian 8 first.timestamp.toNat_lt,
      ofLittleEndian_littleEndian 8 second.timestamp.toNat_lt] at times
    refine ⟨scopesEqual, ?_⟩
    rw [Arguments.mk.injEq]
    exact ⟨firsts, seconds, contents, UInt32.toNat_inj.mp words, UInt64.toNat_inj.mp times⟩
  · rintro ⟨rfl, rfl⟩
    rfl

/-- The digest shows the input from the length of the first identifier on. -/
def window (bytes : Bytes) : Digest where
  bytes := ((bytes ++ replicate 60 0).drop 28).take 32
  size := by
    rw [length_take, length_drop, length_append, length_replicate]
    omega

/-- A byte moves from one identifier to the other. -/
theorem integrity_hash_injective_moved :
    IntegrityScope.direct.hash window ⟨"ab", "c", "", 1, 0⟩ ≠
      IntegrityScope.direct.hash window ⟨"a", "bc", "", 1, 0⟩ := by
  intro same
  have moved := (integrity_hash_injective (by unfold Short; decide) (by unfold Short; decide)
    (by unfold Resists; decide)).mp same
  exact absurd moved.2 (by decide)

end A3Net.Integrity
