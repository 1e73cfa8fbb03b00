import A3Net.Proof.Pairing.SignatureBinding

namespace A3Net.Pairing

open Cryptography Identity

variable (lib : Library)

/-- The invitee verified the invitation, derived the credential from it and built the request. -/
def RepliesTo (invitation : SignedInvitation) (req : PairingRequest) :
    Prop :=
  ∃ (builder : PairingRequestBuilder) (sign : Bytes → Bytes) (now : Int64) (nonce : Nonce32),
    invitation.verify lib now = some (.ok ()) ∧
    invitation.credentialId builder.nodeId = some (.ok builder.credentialId) ∧
    builder.build sign now nonce = some (.ok req)

/-- The wallet signed the response, which names the credential and grants what was requested. -/
structure Grants (lib : Library) (wallet : Address) (req : PairingRequest)
    (response : PairingResponse) : Prop where
  signed : response.SignedBy lib wallet
  credential : response.credentialId = req.credentialId
  requested : ∀ cap ∈ response.grantedCapabilities, cap ∈ req.requestedCapabilities

/-- An accepted response comes from the issuer of the invitation and keeps to the request. -/
def Trusted (invitation : SignedInvitation) (req : PairingRequest)
    (response : PairingResponse) (now : Int64) : Prop :=
  verifyPairingResponse lib response req now = some (.ok ()) →
    Grants lib invitation.payload.issuerWallet req response

/-- The response fails one of the checks that the code makes. -/
@[mk_iff]
inductive Refused (lib : Library) (req : PairingRequest) (response : PairingResponse)
    (now : Int64) : Prop
  | version (other : response.version ≠ 1)
  | nonce (other : response.nonce ≠ req.nonce)
  | unbounded (never : response.expiresAtUnix = Int64.maxValue)
  | expired (late : response.expiresAtUnix < now)
  | unsigned (nobody : ∀ wallet, ¬ response.SignedBy lib wallet)

theorem refused_iff_ne_ok (req : PairingRequest) (response : PairingResponse) (now : Int64) :
    Refused lib req response now ↔ verifyPairingResponse lib response req now ≠ some (.ok ()) := by
  rw [ne_eq, verifyPairingResponse_ok_iff, refused_iff]
  simp only [not_and_or, not_exists, not_not, ne_eq]

/-- The code checks neither the signer nor the credential nor the granted capabilities, so the
response itself has to be right about all three. -/
theorem verifyPairingResponse_trusted_iff (lib : Library) (invitation : SignedInvitation)
    (req : PairingRequest) (response : PairingResponse) (now : Int64) :
    Trusted lib invitation req response now ↔
      Refused lib req response now ∨ Grants lib invitation.payload.issuerWallet req response := by
  rw [refused_iff_ne_ok, Trusted, imp_iff_not_or]

def malloryAddress : Address := ⟨List.replicate 20 0xbb, rfl⟩

/-- Another wallet answers with a credential and with capabilities of its own choice. -/
def forgedResponse (credentialId : CredentialId) : PairingResponse where
  version := 1
  credentialId
  nonce := Vector.replicate 32 0
  issuerNodeId := sampleNode
  issuerPubkey := sampleKey
  grantedCapabilities := ⟨[.chat, .filesWrite]⟩
  expiresAtUnix := 1000
  signature := 0 :: (samplePersonal 3).toCompact

def forgedIssued (credential : CredentialId) (personal : PersonalSignature) :
    Option (Address × Bytes) :=
  if personal = samplePersonal 3 then
    some (malloryAddress, (hashUpdates (responseFields (forgedResponse credential) sampleKey)).bytes)
  else sampleIssued personal

variable {credential : CredentialId}

theorem sampleInvitation_forged :
    sampleInvitation.verify (idealLibrary (forgedIssued credential)) 1000 = some (.ok ()) := by
  rw [SignedInvitation.verify_ok_iff]
  refine ⟨rfl, by decide, _, congrArg (Option.map _) sampleNode_asBytes, ?_⟩
  apply walletAccepts_toCompact (Or.inl rfl)
  have other : samplePersonal 1 ≠ samplePersonal 3 := by decide
  rw [idealLibrary_recover_iff, forgedIssued, if_neg other]
  exact if_pos rfl

/-- The signature of the forged response recovers to one wallet. -/
theorem forgedResponse_signedBy_iff {wallet : Address} :
    (forgedResponse credential).SignedBy (idealLibrary (forgedIssued credential)) wallet ↔
      wallet = malloryAddress := by
  have updates : responseUpdates (forgedResponse credential) =
      some (responseFields (forgedResponse credential) sampleKey) :=
    congrArg (Option.map _) sampleNode_asBytes
  constructor
  · rintro ⟨_, decoded, compact, personal, sig, parsed, found⟩
    obtain rfl : (samplePersonal 3).toCompact = compact := List.tail_eq_of_cons_eq sig
    rw [fromCompact_toCompact (Or.inl rfl), Except.ok.injEq] at parsed
    rw [← parsed, idealLibrary_recover_iff, forgedIssued, if_pos rfl, Option.some.injEq] at found
    exact (Prod.mk.inj found).1.symm
  · rintro rfl
    refine ⟨_, updates, walletAccepts_toCompact (Or.inl rfl) ?_⟩
    exact if_pos rfl

theorem sampleInvitation_credentialId :
    ∃ credential, sampleInvitation.credentialId sampleNode = some (.ok credential) := by
  have derived : ∀ salt, ∃ credential,
      deriveCredentialId sampleInvitation.payload.issuerNodeId sampleNode salt = some credential := by
    intro salt
    exact ⟨_, rfl⟩
  have size : sampleInvitation.payload.salt.length = 32 := List.length_replicate
  obtain ⟨credential, found⟩ := derived ⟨sampleInvitation.payload.salt.toArray, size⟩
  exact ⟨credential, congrArg (Option.map _) found⟩

theorem build_ok (builder : PairingRequestBuilder) (sign : Bytes → Bytes) {now : Int64}
    {nonce : Nonce32} {node : Bytes} (decoded : builder.nodeId.asBytes = some node) :
    ∃ req, builder.build sign now nonce = some (.ok req) ∧ req.nonce = nonce ∧
      req.credentialId = builder.credentialId ∧
        req.requestedCapabilities = builder.requestedCapabilities := by
  simp [PairingRequestBuilder.build, pairingRequestDigest, requestUpdates, decoded]

/-- The forged response is accepted, and all three promises of a response are broken. -/
theorem forgedResponse_accepted :
    ∃ (credential : CredentialId) (req : PairingRequest),
      RepliesTo (idealLibrary (forgedIssued credential)) sampleInvitation req ∧
      verifyPairingResponse (idealLibrary (forgedIssued credential)) (forgedResponse credential)
        req 1000 = some (.ok ()) ∧
      ¬ (forgedResponse credential).SignedBy (idealLibrary (forgedIssued credential))
        sampleInvitation.payload.issuerWallet ∧
      (forgedResponse credential).credentialId ≠ req.credentialId ∧
      Capability.filesWrite ∉ req.requestedCapabilities := by
  obtain ⟨derived, found⟩ := sampleInvitation_credentialId
  obtain ⟨credential, other⟩ : ∃ credential : CredentialId, credential ≠ derived := by
    by_cases zero : derived = Vector.replicate 16 0
    · exact ⟨Vector.replicate 16 1, by rw [zero]; decide⟩
    · exact ⟨Vector.replicate 16 0, Ne.symm zero⟩
  obtain ⟨req, built, nonce, named, requested⟩ :=
    build_ok ⟨derived, sampleNode, sampleKey, ⟨[.chat]⟩, 300⟩ (fun _ => List.replicate 64 0)
      sampleNode_asBytes
  refine ⟨credential, req, ⟨_, _, 1000, _, sampleInvitation_forged, found, built⟩, ?_, ?_, ?_, ?_⟩
  · have bounded : (1000 : Int64) ≠ Int64.maxValue := by decide
    have inTime : ¬ (1000 : Int64) < 1000 := by decide
    rw [verifyPairingResponse_ok_iff]
    exact ⟨rfl, nonce.symm, bounded, inTime, malloryAddress, forgedResponse_signedBy_iff.mpr rfl⟩
  · rw [forgedResponse_signedBy_iff]
    decide
  · rw [named]
    exact other
  · have unrequested : Capability.filesWrite ∉ CapabilitySet.mk [.chat] := by decide
    rw [requested]
    exact unrequested

/-- A response of another wallet to the reply of an invitation is accepted. -/
theorem verifyPairingResponse_forged :
    ¬ ∀ (lib : Library) (invitation : SignedInvitation) (req : PairingRequest)
      (response : PairingResponse) (now : Int64), IdealWallets lib →
        RepliesTo lib invitation req → Trusted lib invitation req response now := by
  intro trusted
  obtain ⟨credential, req, replies, accepted, unsigned, -⟩ := forgedResponse_accepted
  exact unsigned (trusted _ _ _ _ _ (idealLibrary_ideal) replies accepted).signed

end A3Net.Pairing
