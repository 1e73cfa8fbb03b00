import A3Net.Proof.Pairing.SignedFields

namespace A3Net.Pairing

open Cryptography Identity PairingResponse Option List

/-- The letters of two texts stand at the same places in the same case. -/
def SameSpelling (first second : NodeId) : Prop :=
  first.text.map Char.isUpper = second.text.map Char.isUpper

namespace CapabilitySet

variable (first second : CapabilitySet)

/-- Two sets have the same capabilities, in whatever order they come. -/
def SameGrant : Prop := ∀ cap, cap ∈ first ↔ cap ∈ second

/-- Two sets have the same capabilities among those without a bit. -/
def AgreeHigh : Prop :=
  ∀ cap : Capability, 64 ≤ cap.code.toNat → (cap ∈ first ↔ cap ∈ second)

end CapabilitySet

/-- Two lists of updates do not collide. -/
def CollisionFree (first second : Option (List Bytes)) : Prop :=
  ∀ one ∈ first, ∀ other ∈ second, Resists blake3 one.flatten other.flatten

/-- The note is not signed. -/
def InvitationPayload.SameSigned (first second : InvitationPayload) : Prop :=
  first.capabilities.SameGrant second.capabilities ∧
    {first with capabilities := .empty, note := none} =
      {second with capabilities := .empty, note := none}

def PairingRequest.SameSigned (first second : PairingRequest) : Prop :=
  first.requestedCapabilities.SameGrant second.requestedCapabilities ∧
    {first with requestedCapabilities := .empty} = {second with requestedCapabilities := .empty}

def PairingResponse.SameSigned (first second : PairingResponse) : Prop :=
  first.grantedCapabilities.SameGrant second.grantedCapabilities ∧
    {first with grantedCapabilities := .empty} = {second with grantedCapabilities := .empty}

/-- Twins verify with one signature of one issuer. -/
structure SignedInvitation.Twins (lib : Library) (first second : SignedInvitation) : Prop where
  verified : ∃ now, first.verify lib now = some (.ok ())
  otherVerified : ∃ now, second.verify lib now = some (.ok ())
  signature : first.signature = second.signature
  issuer : first.payload.issuerWallet = second.payload.issuerWallet
  resists : CollisionFree (invitationUpdates first.payload) (invitationUpdates second.payload)

/-- The issuer of a request is the holder of its transport key. -/
structure PairingRequest.Twins (lib : Ed25519) (first second : PairingRequest) : Prop where
  verified : ∃ now, verifyPairingRequest lib first now = some (.ok ())
  otherVerified : ∃ now, verifyPairingRequest lib second now = some (.ok ())
  signature : first.signature = second.signature
  issuer : first.transportPubkey = second.transportPubkey
  resists : CollisionFree (requestUpdates first) (requestUpdates second)

/-- A response does not name the wallet of its issuer. -/
structure PairingResponse.Twins (lib : Library) (first second : PairingResponse) : Prop where
  verified : ∃ req now, verifyPairingResponse lib first req now = some (.ok ())
  otherVerified : ∃ req now, verifyPairingResponse lib second req now = some (.ok ())
  signature : first.signature = second.signature
  issuer : ∃ wallet, first.SignedBy lib wallet ∧ second.SignedBy lib wallet
  resists : CollisionFree (responseUpdates first) (responseUpdates second)

/-- A wallet signature that recovers to one signer is a signature of one message. -/
def IdealWallets (lib : Library) : Prop :=
  Ideal fun signer msg personal => lib.recoverPersonal msg personal = .ok signer

def IdealTransports (lib : Ed25519) : Prop :=
  Ideal fun key msg sig => lib.verify key msg sig = true

/-- A signed canonical form leaves the capabilities without a bit open. -/
theorem sameGrant_iff {first second : CapabilitySet}
    (signed : utf8Chars first.canonical = utf8Chars second.canonical) :
    first.SameGrant second ↔ first.AgreeHigh second := by
  constructor
  · exact fun same cap _ => same cap
  · intro agree cap
    rcases Nat.lt_or_ge cap.code.toNat 64 with low | high
    · exact canonical_eq_iff.mp signed cap low
    · exact agree cap high

variable {node : Bytes}

section

variable {first second : NodeId} (spelling : SameSpelling first second)
  (decoded : first.asBytes = some node)
include spelling decoded

theorem SameSpelling.length {other : Bytes} (otherDecoded : second.asBytes = some other) :
    node.length = other.length := by
  have texts := congrArg List.length spelling
  rw [length_map, length_map, bytesOfHexChars_length decoded,
    bytesOfHexChars_length otherDecoded] at texts
  omega

theorem SameSpelling.eq (otherDecoded : second.asBytes = some node) : first = second :=
  congrArg NodeId.mk (bytesOfHexChars_injective decoded otherDecoded spelling)

end

variable {lib : Library} {signer : Address} {sig : Bytes}

/-- A wallet signature binds the hashed updates. -/
theorem WalletAccepts.binds (ideal : IdealWallets lib) {first second : List Bytes}
    (resists : Resists blake3 first.flatten second.flatten)
    (one : WalletAccepts lib signer (hashUpdates first).bytes sig)
    (other : WalletAccepts lib signer (hashUpdates second).bytes sig) :
    first.flatten = second.flatten := by
  obtain ⟨compact, personal, rfl, parsed, found⟩ := one
  obtain ⟨compact', personal', same, parsed', found'⟩ := other
  obtain rfl : compact = compact' := tail_eq_of_cons_eq same
  obtain rfl : personal = personal' := Except.ok.inj (parsed.symm.trans parsed')
  exact ideal.hashed resists found found'

/-- The node identifier and the salt have no fixed length, so their border is open. -/
theorem SignedInvitation.Twins.sameSigned_iff (ideal : IdealWallets lib)
    {first second : SignedInvitation} (twins : first.Twins lib second) :
    first.payload.SameSigned second.payload ↔
      first.payload.capabilities.AgreeHigh second.payload.capabilities ∧
        SameSpelling first.payload.issuerNodeId second.payload.issuerNodeId := by
  obtain ⟨now, verified⟩ := twins.verified
  obtain ⟨later, otherVerified⟩ := twins.otherVerified
  obtain ⟨-, -, _, updates, accepted⟩ := (verify_ok_iff lib first now).mp verified
  obtain ⟨-, -, _, otherUpdates, otherAccepted⟩ := (verify_ok_iff lib second later).mp otherVerified
  rw [twins.issuer, twins.signature] at accepted
  have flat := accepted.binds ideal (twins.resists _ updates _ otherUpdates) otherAccepted
  obtain ⟨node, decoded, rfl⟩ := map_eq_some_iff.mp updates
  obtain ⟨other, otherDecoded, rfl⟩ := map_eq_some_iff.mp otherUpdates
  constructor
  · rintro ⟨grant, rest⟩
    exact ⟨fun cap _ => grant cap, by rw [SameSpelling, (InvitationPayload.mk.inj rest).2.1]⟩
  · rintro ⟨agree, spelling⟩
    have nodeLength := spelling.length decoded otherDecoded
    have saltLength : first.payload.salt.length = second.payload.salt.length := by
      have total := congrArg length flat
      simp [invitationFields, first.payload.issuerWallet.size, second.payload.issuerWallet.size]
        at total
      omega
    have fields := eq_iff_flatten_eq.mpr ⟨flat, by
      simp [invitationFields, nodeLength, saltLength, twins.issuer]⟩
    simp only [invitationFields, cons.injEq, and_true, true_and] at fields
    obtain ⟨version, rfl, -, salt, signed, expiry⟩ := fields
    refine ⟨(sameGrant_iff signed).mpr agree, ?_⟩
    rw [InvitationPayload.mk.injEq]
    exact ⟨version, spelling.eq decoded otherDecoded, twins.issuer, salt, rfl,
      toBeBytes_injective expiry, rfl⟩

/-- The transport key fixes the length of the node identifier. -/
theorem PairingRequest.Twins.sameSigned_iff {lib : Ed25519} (ideal : IdealTransports lib)
    {first second : PairingRequest} (twins : first.Twins lib second) :
    first.SameSigned second ↔
      first.requestedCapabilities.AgreeHigh second.requestedCapabilities ∧
        SameSpelling first.nodeId second.nodeId := by
  obtain ⟨now, verified⟩ := twins.verified
  obtain ⟨later, otherVerified⟩ := twins.otherVerified
  obtain ⟨-, -, -, -, sig, parts, -, checked⟩ :=
    verifyPairingRequest_ok_iff.mp verified
  obtain ⟨-, -, -, -, signature', parts', -, otherChecked⟩ :=
    verifyPairingRequest_ok_iff.mp otherVerified
  obtain ⟨-, decoded, _, updates, accepted⟩ := verifyTransport_ok_iff.mp checked
  obtain ⟨-, otherDecoded, _, otherUpdates, otherAccepted⟩ :=
    verifyTransport_ok_iff.mp otherChecked
  obtain rfl : sig = signature' :=
    tail_eq_of_cons_eq (parts.symm.trans (twins.signature.trans parts'))
  rw [twins.issuer] at accepted decoded
  have flat := ideal.hashed (twins.resists _ updates _ otherUpdates) accepted otherAccepted
  rw [requestUpdates, decoded, map_some, Option.some.injEq] at updates
  rw [requestUpdates, otherDecoded, map_some, Option.some.injEq] at otherUpdates
  subst updates otherUpdates
  constructor
  · rintro ⟨grant, rest⟩
    exact ⟨fun cap _ => grant cap, by rw [SameSpelling, (PairingRequest.mk.inj rest).2.2.1]⟩
  · rintro ⟨agree, spelling⟩
    have fields := eq_iff_flatten_eq.mpr ⟨flat, by simp [requestFields, twins.issuer]⟩
    simp only [requestFields, cons.injEq, and_true, true_and] at fields
    obtain ⟨version, credential, -, signed, expiry, nonce⟩ := fields
    refine ⟨(sameGrant_iff signed).mpr agree, ?_⟩
    rw [PairingRequest.mk.injEq]
    exact ⟨version, Vector.toList_inj.mp credential, spelling.eq decoded otherDecoded,
      twins.issuer, rfl, toBeBytes_injective expiry, Vector.toList_inj.mp nonce, twins.signature⟩

/-- The node identifier and the key of the issuer have no fixed length. -/
theorem PairingResponse.Twins.sameSigned_iff (ideal : IdealWallets lib)
    {first second : PairingResponse} (twins : first.Twins lib second) :
    first.SameSigned second ↔
      first.grantedCapabilities.AgreeHigh second.grantedCapabilities ∧
        SameSpelling first.issuerNodeId second.issuerNodeId := by
  obtain ⟨wallet, ⟨_, updates, accepted⟩, ⟨_, otherUpdates, otherAccepted⟩⟩ := twins.issuer
  rw [twins.signature] at accepted
  have flat := accepted.binds ideal (twins.resists _ updates _ otherUpdates) otherAccepted
  obtain ⟨node, decoded, rfl⟩ := map_eq_some_iff.mp updates
  obtain ⟨other, otherDecoded, rfl⟩ := map_eq_some_iff.mp otherUpdates
  constructor
  · rintro ⟨grant, rest⟩
    exact ⟨fun cap _ => grant cap, by rw [SameSpelling, (mk.inj rest).2.2.2.1]⟩
  · rintro ⟨agree, spelling⟩
    have nodeLength := spelling.length decoded otherDecoded
    have keyLength : first.issuerPubkey.length = second.issuerPubkey.length := by
      have total := congrArg length flat
      simp [responseFields] at total
      omega
    have fields := eq_iff_flatten_eq.mpr ⟨flat, by
      simp [responseFields, nodeLength, keyLength]⟩
    simp only [responseFields, cons.injEq, and_true, true_and] at fields
    obtain ⟨version, credential, nonce, rfl, key, signed, expiry⟩ := fields
    refine ⟨(sameGrant_iff signed).mpr agree, ?_⟩
    rw [mk.injEq]
    exact ⟨version, Vector.toList_inj.mp credential, Vector.toList_inj.mp nonce,
      spelling.eq decoded otherDecoded, key, rfl, toBeBytes_injective expiry, twins.signature⟩

/-- Anyone can exchange the capabilities of a signed invitation. -/
def SignedInvitation.regrant (invitation : SignedInvitation) (set : CapabilitySet) :
    SignedInvitation :=
  {invitation with payload := {invitation.payload with capabilities := set}}

def PairingRequest.regrant (req : PairingRequest) (set : CapabilitySet) : PairingRequest :=
  {req with requestedCapabilities := set}

def PairingResponse.regrant (response : PairingResponse) (set : CapabilitySet) : PairingResponse :=
  {response with grantedCapabilities := set}

theorem collisionFree_self {updates : Option (List Bytes)} : CollisionFree updates updates := by
  intro one member other otherMember _
  rw [mem_unique member otherMember]

variable {set : CapabilitySet} {now : Int64} {req : PairingRequest}

/-- An invitation still verifies when its capabilities without a bit are exchanged. -/
theorem SignedInvitation.twins_regrant {invitation : SignedInvitation}
    (verified : invitation.verify lib now = some (.ok ()))
    (signed : utf8Chars invitation.payload.capabilities.canonical = utf8Chars set.canonical) :
    invitation.Twins lib (invitation.regrant set) := by
  have updates : invitationUpdates (invitation.regrant set).payload =
      invitationUpdates invitation.payload := by
    refine congrArg (Option.map · invitation.payload.issuerNodeId.asBytes) (funext fun node => ?_)
    simp only [invitationFields, regrant, signed]
  have regranted : (invitation.regrant set).verify lib now = some (.ok ()) := by
    rw [verify_ok_iff, updates]
    exact (verify_ok_iff lib invitation now).mp verified
  refine ⟨⟨now, verified⟩, ⟨now, regranted⟩, rfl, rfl, ?_⟩
  rw [updates]
  exact collisionFree_self

theorem PairingRequest.twins_regrant {lib : Ed25519}
    (verified : verifyPairingRequest lib req now = some (.ok ()))
    (signed : utf8Chars req.requestedCapabilities.canonical = utf8Chars set.canonical) :
    req.Twins lib (req.regrant set) := by
  have updates : requestUpdates (req.regrant set) = requestUpdates req := by
    refine congrArg (Option.map · req.nodeId.asBytes) (funext fun node => ?_)
    simp only [requestFields, regrant, signed]
  have regranted : verifyPairingRequest lib (req.regrant set) now = some (.ok ()) := by
    simp only [verifyPairingRequest_ok_iff, verifyTransport_ok_iff, updates] at verified ⊢
    exact verified
  refine ⟨⟨now, verified⟩, ⟨now, regranted⟩, rfl, rfl, ?_⟩
  rw [updates]
  exact collisionFree_self

theorem PairingResponse.twins_regrant {response : PairingResponse}
    (verified : verifyPairingResponse lib response req now = some (.ok ()))
    (signed : utf8Chars response.grantedCapabilities.canonical = utf8Chars set.canonical) :
    response.Twins lib (response.regrant set) := by
  have updates : responseUpdates (response.regrant set) = responseUpdates response := by
    refine congrArg (Option.map · response.issuerNodeId.asBytes) (funext fun node => ?_)
    simp only [responseFields, regrant, signed]
  have checks := (verifyPairingResponse_ok_iff lib).mp verified
  obtain ⟨wallet, signedBy⟩ := checks.2.2.2.2
  have regrantedBy : (response.regrant set).SignedBy lib wallet := by
    unfold PairingResponse.SignedBy
    rw [updates]
    exact signedBy
  have regranted :
      verifyPairingResponse lib (response.regrant set) req now = some (.ok ()) :=
    (verifyPairingResponse_ok_iff lib).mpr
      ⟨checks.1, checks.2.1, checks.2.2.1, checks.2.2.2.1, wallet, regrantedBy⟩
  refine ⟨⟨req, now, verified⟩, ⟨req, now, regranted⟩, rfl, ⟨wallet, signedBy, regrantedBy⟩, ?_⟩
  rw [updates]
  exact collisionFree_self

/-- An ideal library remembers the signer and the message of each signature. -/
def idealLibrary (issued : PersonalSignature → Option (Address × Bytes)) : Library where
  keccak256 _ := []
  recoverPersonal msg personal :=
    match issued personal with
    | none => .error (.invalidSignature "unknown")
    | some (signer, signed) =>
      if signed = msg then .ok signer else .error (.invalidSignature "other message")
  hexError _ := ""

variable {issued : PersonalSignature → Option (Address × Bytes)}

theorem idealLibrary_recover_iff {msg : Bytes} {personal : PersonalSignature} :
    (idealLibrary issued).recoverPersonal msg personal = .ok signer ↔
      issued personal = some (signer, msg) := by
  unfold idealLibrary
  dsimp only
  split
  · next missing => simp [missing]
  · next other signed found =>
    rw [found, Option.some.injEq, Prod.mk.injEq]
    split_ifs with same
    · simp [same]
    · simp [same]

theorem idealLibrary_ideal : IdealWallets (idealLibrary issued) := by
  intro signer personal first second one other
  rw [idealLibrary_recover_iff] at one other
  exact (Prod.mk.inj (Option.some.inj (one.symm.trans other))).2

/-- An ideal transport remembers the key and the message of each signature. -/
def idealTransport (issued : Bytes → Option (Bytes × Bytes)) : Ed25519 where
  keyError _ := none
  verify key msg sig := issued sig = some (key, msg)

theorem idealTransport_verify_iff {issued : Bytes → Option (Bytes × Bytes)} {key msg : Bytes} :
    (idealTransport issued).verify key msg sig = true ↔ issued sig = some (key, msg) :=
  decide_eq_true_iff

theorem idealTransport_ideal {issued : Bytes → Option (Bytes × Bytes)} :
    IdealTransports (idealTransport issued) := by
  intro key sig first second one other
  rw [idealTransport_verify_iff] at one other
  exact (Prod.mk.inj (Option.some.inj (one.symm.trans other))).2

def sampleKey : Bytes := replicate 32 0x11

def sampleNode : NodeId := ⟨hexChars sampleKey⟩

theorem sampleNode_asBytes : sampleNode.asBytes = some sampleKey :=
  bytesOfHexChars_hexChars sampleKey

def samplePersonal (mark : UInt8) : PersonalSignature where
  r := replicate 32 mark
  s := replicate 32 mark
  v := 27
  rSize := length_replicate
  sSize := length_replicate

def sampleInvitation : SignedInvitation where
  payload := {
    version := 1
    issuerNodeId := sampleNode
    issuerWallet := Address.zero
    salt := replicate 32 0
    capabilities := ⟨[.chat]⟩
    expiresAtUnix := 1000
    note := none}
  signature := 0 :: (samplePersonal 1).toCompact

def sampleRequest : PairingRequest where
  version := 1
  credentialId := Vector.replicate 16 0
  nodeId := sampleNode
  transportPubkey := sampleKey
  requestedCapabilities := ⟨[.chat]⟩
  expiresAtUnix := 1000
  nonce := Vector.replicate 32 0
  signature := 1 :: replicate 64 0

def sampleResponse : PairingResponse where
  version := 1
  credentialId := sampleRequest.credentialId
  nonce := sampleRequest.nonce
  issuerNodeId := sampleNode
  issuerPubkey := sampleKey
  grantedCapabilities := ⟨[.chat]⟩
  expiresAtUnix := 1000
  signature := 0 :: (samplePersonal 2).toCompact

/-- The wallet signed the invitation and the response. -/
def sampleIssued (personal : PersonalSignature) : Option (Address × Bytes) :=
  if personal = samplePersonal 1 then
    some (Address.zero, (hashUpdates (invitationFields sampleInvitation.payload sampleKey)).bytes)
  else if personal = samplePersonal 2 then
    some (Address.zero, (hashUpdates (responseFields sampleResponse sampleKey)).bytes)
  else none

def sampleTransport : Ed25519 :=
  idealTransport fun _ =>
    some (sampleKey, (hashUpdates (requestFields sampleRequest sampleKey)).bytes)

theorem sampleInvitation_verified :
    sampleInvitation.verify (idealLibrary sampleIssued) 1000 = some (.ok ()) := by
  rw [SignedInvitation.verify_ok_iff]
  refine ⟨rfl, by decide, _, congrArg (Option.map _) sampleNode_asBytes, ?_⟩
  apply walletAccepts_toCompact (Or.inl rfl)
  rw [idealLibrary_recover_iff]
  exact if_pos rfl

theorem sampleRequest_verified :
    verifyPairingRequest sampleTransport sampleRequest 1000 = some (.ok ()) := by
  rw [verifyPairingRequest_ok_iff]
  refine ⟨rfl, by decide, by decide, rfl, _, rfl, rfl, ?_⟩
  rw [verifyTransport_ok_iff]
  refine ⟨rfl, sampleNode_asBytes, _, congrArg (Option.map _) sampleNode_asBytes, ?_⟩
  exact idealTransport_verify_iff.mpr rfl

theorem sampleResponse_verified :
    verifyPairingResponse (idealLibrary sampleIssued) sampleResponse sampleRequest 1000 =
      some (.ok ()) := by
  rw [verifyPairingResponse_ok_iff]
  refine ⟨rfl, rfl, by decide, by decide, Address.zero, _,
    congrArg (Option.map _) sampleNode_asBytes, ?_⟩
  apply walletAccepts_toCompact (Or.inl rfl)
  rw [idealLibrary_recover_iff]
  have other : samplePersonal 2 ≠ samplePersonal 1 := by decide
  rw [sampleIssued, if_neg other, if_pos rfl]

/-- The added capability has the code 64. -/
def sampleSet : CapabilitySet := ⟨[.chat, .gossipPublish]⟩

theorem sampleSet_canonical :
    utf8Chars (CapabilitySet.mk [.chat]).canonical = utf8Chars sampleSet.canonical := by
  decide

theorem sampleSet_not_sameGrant : ¬ (CapabilitySet.mk [.chat]).SameGrant sampleSet := by
  intro same
  have added := (same .gossipPublish).mpr (by decide)
  exact absurd added (by decide)

/-- A signature binds the grant exactly when the capabilities without a bit and the spelling of
the node identifier agree. -/
theorem pairing_binds_iff (lib : Library) (transport : Ed25519)
    (wallets : IdealWallets lib) (transports : IdealTransports transport) :
    (∀ first second : SignedInvitation, first.Twins lib second →
      (first.payload.SameSigned second.payload ↔
        first.payload.capabilities.AgreeHigh second.payload.capabilities ∧
          SameSpelling first.payload.issuerNodeId second.payload.issuerNodeId)) ∧
    (∀ first second : PairingRequest, first.Twins transport second →
      (first.SameSigned second ↔
        first.requestedCapabilities.AgreeHigh second.requestedCapabilities ∧
          SameSpelling first.nodeId second.nodeId)) ∧
    (∀ first second : PairingResponse, first.Twins lib second →
      (first.SameSigned second ↔
        first.grantedCapabilities.AgreeHigh second.grantedCapabilities ∧
          SameSpelling first.issuerNodeId second.issuerNodeId)) :=
  ⟨fun _ _ twins => twins.sameSigned_iff wallets, fun _ _ twins => twins.sameSigned_iff transports,
    fun _ _ twins => twins.sameSigned_iff wallets⟩

/-- The theorem applies to signed objects and to the same objects with one more capability. -/
theorem pairing_binds_iff_sample :
    (sampleInvitation.Twins (idealLibrary sampleIssued) (sampleInvitation.regrant sampleSet) ∧
      (sampleInvitation.payload.SameSigned (sampleInvitation.regrant sampleSet).payload ↔
        (CapabilitySet.mk [.chat]).AgreeHigh sampleSet ∧ SameSpelling sampleNode sampleNode)) ∧
    (sampleRequest.Twins sampleTransport (sampleRequest.regrant sampleSet) ∧
      (sampleRequest.SameSigned (sampleRequest.regrant sampleSet) ↔
        (CapabilitySet.mk [.chat]).AgreeHigh sampleSet ∧ SameSpelling sampleNode sampleNode)) ∧
    (sampleResponse.Twins (idealLibrary sampleIssued) (sampleResponse.regrant sampleSet) ∧
      (sampleResponse.SameSigned (sampleResponse.regrant sampleSet) ↔
        (CapabilitySet.mk [.chat]).AgreeHigh sampleSet ∧ SameSpelling sampleNode sampleNode)) := by
  obtain ⟨invitations, requests, responses⟩ :=
    pairing_binds_iff (idealLibrary sampleIssued) sampleTransport
      (idealLibrary_ideal) (idealTransport_ideal)
  have invitation := SignedInvitation.twins_regrant sampleInvitation_verified sampleSet_canonical
  have req := PairingRequest.twins_regrant sampleRequest_verified sampleSet_canonical
  have response := twins_regrant sampleResponse_verified sampleSet_canonical
  exact ⟨⟨invitation, invitations _ _ invitation⟩, ⟨req, requests _ _ req⟩,
    ⟨response, responses _ _ response⟩⟩

/-- A capability with the code 64 is added to a signed invitation, request and response. -/
theorem pairing_capability_added :
    (¬ ∀ lib, IdealWallets lib → ∀ first second : SignedInvitation,
      first.Twins lib second → first.payload.SameSigned second.payload) ∧
    (¬ ∀ transport, IdealTransports transport → ∀ first second : PairingRequest,
      first.Twins transport second → first.SameSigned second) ∧
    (¬ ∀ lib, IdealWallets lib → ∀ first second : PairingResponse,
      first.Twins lib second → first.SameSigned second) := by
  refine ⟨fun bound => ?_, fun bound => ?_, fun bound => ?_⟩
  · have same := bound _ (idealLibrary_ideal) _ _
      (SignedInvitation.twins_regrant sampleInvitation_verified sampleSet_canonical)
    exact sampleSet_not_sameGrant same.1
  · have same := bound sampleTransport (idealTransport_ideal) _ _
      (PairingRequest.twins_regrant sampleRequest_verified sampleSet_canonical)
    exact sampleSet_not_sameGrant same.1
  · have same := bound _ (idealLibrary_ideal) _ _
      (twins_regrant sampleResponse_verified sampleSet_canonical)
    exact sampleSet_not_sameGrant same.1

end A3Net.Pairing
