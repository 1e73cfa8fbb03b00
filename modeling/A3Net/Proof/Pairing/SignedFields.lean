import A3Net.Construction.Pairing.TransportIdentity

namespace A3Net.Pairing

open Cryptography Identity PersonalSignature List

theorem setBit_testBit (mask : Nat) (cap : Capability) (index : Nat) :
    (CapabilitySet.setBit mask cap).testBit index = true ↔
      mask.testBit index = true ∨ index < 64 ∧ cap.code.toNat = index := by
  unfold CapabilitySet.setBit
  split
  · rw [Nat.testBit_or, Nat.one_shiftLeft, Nat.testBit_two_pow, Bool.or_eq_true, decide_eq_true_eq]
    apply or_congr_right
    omega
  · apply iff_self_or.mpr
    omega

variable {set : CapabilitySet}

/-- A bit of the mask says whether the capability of its index belongs to the set. -/
theorem bitmask_testBit {index : Nat} :
    set.bitmask.testBit index = true ↔ index < 64 ∧ ∃ cap ∈ set, cap.code.toNat = index := by
  have fold : ∀ (caps : List Capability) (mask : Nat),
      (caps.foldl CapabilitySet.setBit mask).testBit index = true ↔
        mask.testBit index = true ∨ index < 64 ∧ ∃ cap ∈ caps, cap.code.toNat = index := by
    intro caps
    induction caps with
    | nil => simp
    | cons cap rest ih =>
      intro mask
      rw [foldl_cons, ih, setBit_testBit]
      simp only [mem_cons, exists_eq_or_imp]
      tauto
  have empty := fold set.caps 0
  rw [Nat.zero_testBit, Bool.false_eq_true, false_or] at empty
  exact empty

theorem bitmask_lt : set.bitmask < 2 ^ 64 := by
  apply Nat.lt_pow_two_of_testBit
  intro index high
  rw [Bool.eq_false_iff]
  intro bit
  have low := (bitmask_testBit.mp bit).1
  omega

theorem canonical_utf8 :
    utf8Chars set.canonical =
      utf8Chars ['c', 'a', 'p', 's', ':'] ++ utf8Chars (hexChars (bigEndian 8 set.bitmask)) := by
  simp [CapabilitySet.canonical, utf8Chars]

@[simp] theorem canonical_length : (utf8Chars set.canonical).length = 21 := by
  rw [canonical_utf8, length_append, utf8Chars_hexChars_length, bigEndian_length]
  rfl

theorem canonical_eq_iff_bitmask (first second : CapabilitySet) :
    utf8Chars first.canonical = utf8Chars second.canonical ↔ first.bitmask = second.bitmask := by
  constructor
  · intro same
    rw [canonical_utf8, canonical_utf8, append_cancel_left_eq] at same
    exact bigEndian_injective 8 (bitmask_lt) (bitmask_lt) (utf8Chars_hexChars_injective same)
  · intro same
    rw [canonical_utf8, canonical_utf8, same]

/-- The signed form of a set tells its capabilities with a code below 64, and nothing else. -/
theorem canonical_eq_iff {first second : CapabilitySet} :
    utf8Chars first.canonical = utf8Chars second.canonical ↔
      ∀ cap : Capability, cap.code.toNat < 64 → (cap ∈ first ↔ cap ∈ second) := by
  have member : ∀ (set : CapabilitySet) (cap : Capability), cap.code.toNat < 64 →
      (set.bitmask.testBit cap.code.toNat = true ↔ cap ∈ set) := by
    intro set cap low
    rw [bitmask_testBit]
    constructor
    · rintro ⟨-, other, inside, same⟩
      have equal : other = cap := Capability.ext (UInt16.toNat_inj.mp same)
      exact equal ▸ inside
    · exact fun inside => ⟨low, cap, inside, rfl⟩
  rw [canonical_eq_iff_bitmask]
  constructor
  · intro same cap low
    rw [← member first cap low, ← member second cap low, same]
  · intro agree
    apply Nat.eq_of_testBit_eq
    intro index
    rw [Bool.eq_iff_iff, bitmask_testBit, bitmask_testBit]
    apply and_congr_right
    intro low
    constructor
    · rintro ⟨cap, inside, rfl⟩
      exact ⟨cap, (agree cap low).mp inside, rfl⟩
    · rintro ⟨cap, inside, rfl⟩
      exact ⟨cap, (agree cap low).mpr inside, rfl⟩

@[simp] theorem toBeBytes_length (time : Int64) : (toBeBytes time).length = 8 :=
  bigEndian_length 8

theorem toBeBytes_injective : Function.Injective toBeBytes := by
  intro first second same
  have words := bigEndian_injective 8 first.toUInt64.toNat_lt second.toUInt64.toNat_lt same
  exact congrArg Int64.ofUInt64 (UInt64.toNat_inj.mp words)

/-- The signature has the tag of the wallet scheme, and it recovers to the signer. -/
def WalletAccepts (lib : Library) (signer : Address) (msg sig : Bytes) : Prop :=
  ∃ compact personal, sig = 0 :: compact ∧
    PersonalSignature.fromCompact compact = .ok personal ∧
      lib.recoverPersonal msg personal = .ok signer

variable {personal : PersonalSignature}

theorem fromCompact_length {compact : Bytes}
    (parsed : fromCompact compact = .ok personal) : compact.length = 65 := by
  unfold fromCompact at parsed
  split at parsed
  · assumption
  · cases parsed

/-- A signature with a recovery byte of the standard survives its compact form. -/
theorem fromCompact_toCompact (standard : personal.v = 27 ∨ personal.v = 28) :
    fromCompact personal.toCompact = .ok personal := by
  obtain ⟨r, s, v, rSize, sSize⟩ := personal
  have size : (r ++ s ++ [v]).length = 65 := by simp [rSize, sSize]
  have last : (r ++ s ++ [v]).getD 64 0 = v := by
    simp [rSize, sSize]
  simp only [fromCompact, toCompact, size, last, dif_pos]
  rw [if_neg (by tauto)]
  simp [rSize, sSize]

theorem walletAccepts_toCompact {lib : Library} {signer : Address} {msg : Bytes}
    (standard : personal.v = 27 ∨ personal.v = 28)
    (found : lib.recoverPersonal msg personal = .ok signer) :
    WalletAccepts lib signer msg (0 :: personal.toCompact) :=
  ⟨personal.toCompact, personal, rfl, fromCompact_toCompact standard, found⟩

variable (lib : Library)

theorem recoverIssuer_ok_iff (what : String) (digest : Digest) (sig : Bytes)
    (signer : Address) :
    recoverIssuer lib what digest sig = .ok signer ↔ WalletAccepts lib signer digest.bytes sig := by
  constructor
  · intro recovered
    unfold recoverIssuer at recovered
    cases sig with
    | nil => cases recovered
    | cons tag compact =>
      simp only [isEmpty_cons, Bool.false_eq_true, if_false, splitScheme] at recovered
      split_ifs at recovered with tagged sized
      split at recovered
      · cases recovered
      · next personal parsed =>
        split at recovered
        · cases recovered
        · next address found =>
          cases recovered
          exact ⟨compact, personal, by rw [not_not.mp tagged], parsed, found⟩
  · rintro ⟨compact, personal, rfl, parsed, found⟩
    simp [recoverIssuer, splitScheme, fromCompact_length parsed, parsed, found]

theorem SignedInvitation.verify_ok_iff (invitation : SignedInvitation) (now : Int64) :
    invitation.verify lib now = some (.ok ()) ↔
      invitation.payload.version = 1 ∧
      ¬ (invitation.payload.expiresAtUnix ≠ Int64.maxValue ∧
        invitation.payload.expiresAtUnix < now) ∧
      ∃ updates, invitationUpdates invitation.payload = some updates ∧
        WalletAccepts lib invitation.payload.issuerWallet (hashUpdates updates).bytes
          invitation.signature := by
  unfold SignedInvitation.verify pairingInvitationDigest
  dsimp only
  split_ifs with version expired
  · simp [version]
  · simp [expired]
  · simp only [not_not.mp version, expired, Option.map_map, Option.map_eq_some_iff,
      Function.comp_apply, true_and, not_false_eq_true]
    apply exists_congr
    intro updates
    apply and_congr_right
    intro _
    rw [← recoverIssuer_ok_iff lib "signed_invitation.signature"]
    split
    · next failed => simp [failed]
    · next recovered found =>
      rw [found]
      split_ifs with other
      · simp [other]
      · simp [not_not.mp other]

variable {req : PairingRequest}

theorem verifyTransport_ok_iff {lib : Ed25519} {sig : Bytes} :
    verifyTransport lib req sig = some (.ok ()) ↔
      lib.keyError req.transportPubkey = none ∧
      req.nodeId.asBytes = some req.transportPubkey ∧
      ∃ updates, requestUpdates req = some updates ∧
        lib.verify req.transportPubkey (hashUpdates updates).bytes sig = true := by
  unfold verifyTransport pairingRequestDigest requestUpdates
  cases decoded : req.nodeId.asBytes with
  | none => simp
  | some node =>
    cases refused : lib.keyError req.transportPubkey with
    | some text => simp
    | none =>
      simp only [Option.map_some, Option.bind_some, true_and, Option.some.injEq, exists_eq_left']
      split_ifs with accepted other
      · simp [other]
      · obtain rfl := not_not.mp other
        simp [accepted]
      · simp [accepted]

variable {now : Int64}

theorem verifyPairingRequest_ok_iff {lib : Ed25519} :
    verifyPairingRequest lib req now = some (.ok ()) ↔
      req.version = 1 ∧ ¬ req.expiresAtUnix < now ∧
      ¬ maxTimestampSkewSeconds < req.expiresAtUnix - now ∧
      req.transportPubkey.length = 32 ∧
      ∃ sig, req.signature = transportSchemeEd25519 :: sig ∧
        sig.length = 64 ∧ verifyTransport lib req sig = some (.ok ()) := by
  unfold verifyPairingRequest
  cases parts : req.signature with
  | nil =>
    simp only [splitScheme]
    split_ifs <;> simp
  | cons tag sig =>
    simp only [splitScheme, cons.injEq]
    split_ifs with version expired skew tagged sized key
    · simp [version]
    · simp [expired]
    · simp [skew]
    · simp [tagged]
    · simp [sized]
    · simp [key]
    · simp [not_not.mp version, expired, skew, not_not.mp tagged, not_not.mp sized, not_not.mp key]

/-- The wallet signed the response. -/
def PairingResponse.SignedBy (lib : Library) (response : PairingResponse)
    (wallet : Address) : Prop :=
  ∃ updates, responseUpdates response = some updates ∧
    WalletAccepts lib wallet (hashUpdates updates).bytes response.signature

/-- These are all the checks of a response. -/
theorem verifyPairingResponse_ok_iff {response : PairingResponse} :
    verifyPairingResponse lib response req now = some (.ok ()) ↔
      response.version = 1 ∧ response.nonce = req.nonce ∧
      response.expiresAtUnix ≠ Int64.maxValue ∧ ¬ response.expiresAtUnix < now ∧
      ∃ wallet, response.SignedBy lib wallet := by
  unfold verifyPairingResponse pairingResponseDigest
  split_ifs with version nonce unbounded expired
  · simp [version]
  · simp [nonce]
  · simp [unbounded]
  · simp [expired]
  · simp only [not_not.mp version, not_not.mp nonce, unbounded, expired, Option.map_map,
      Option.map_eq_some_iff, Function.comp_apply, true_and, not_false_eq_true, ne_eq,
      PairingResponse.SignedBy]
    rw [exists_comm]
    apply exists_congr
    intro updates
    rw [exists_and_left]
    apply and_congr_right
    intro _
    simp only [← recoverIssuer_ok_iff lib "pairing_response.signature"]
    split
    · next failed => simp [failed]
    · next recovered found => simp [found]

end A3Net.Pairing
