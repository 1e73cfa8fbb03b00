import A3Net.Proof.ChatCrypto.SenderKeyReuse

namespace A3Net.ChatCrypto

open Cryptography Machine List

structure Message where
  nonce : Nonce
  ad : Bytes
  plaintext : Bytes

/-- The receiver is called with a message of the sender or with anything else. -/
structure Arrival where
  genuine : Bool
  ad : Bytes
  blob : Bytes
  expectedIteration : UInt32

namespace SenderKeyChain

section

variable (kdf : Kdf) (cipher : ChaCha20Poly1305)

def sealAll : SenderKeyChain → List Message → Except CryptoError (List Arrival)
  | _, [] => .ok []
  | chain, msg :: rest =>
    match chain.sealNext kdf cipher msg.nonce.bytes msg.ad msg.plaintext with
    | (.error error, _) => .error error
    | (.ok (iteration, blob), next) =>
      (next.sealAll rest).map (⟨true, msg.ad, blob, iteration⟩ :: ·)

variable (chain : SenderKeyChain) (arrival : Arrival)

def answer : Except CryptoError Bytes × SenderKeyChain :=
  chain.openNext kdf cipher arrival.ad arrival.blob arrival.expectedIteration

def arrive : SenderKeyChain := (chain.answer kdf cipher arrival).2

/-- What is no message of the sender is rejected. -/
def Rejects : Prop :=
  arrival.genuine = false → ∃ error, (chain.answer kdf cipher arrival).1 = .error error

/-- These are the answers for the messages of the sender. -/
def openAll : SenderKeyChain → List Arrival → List (Except CryptoError Bytes)
  | _, [] => []
  | chain, arrival :: rest =>
    let later := (chain.arrive kdf cipher arrival).openAll rest
    if arrival.genuine then (chain.answer kdf cipher arrival).1 :: later else later

end

variable {kdf : Kdf} {cipher : ChaCha20Poly1305} {sender receiver : SenderKeyChain}

theorem arrive_of_error {arrival : Arrival} {error : CryptoError}
    (rejected : (receiver.answer kdf cipher arrival).1 = .error error) :
    receiver.arrive kdf cipher arrival = receiver := by
  unfold arrive
  unfold answer openNext at *
  split_ifs at *
  · rfl
  · rfl
  · rw [keys_eq] at *
    dsimp only at *
    split at rejected
    · rfl
    · cases rejected

/-- What the receiver rejects before the next message does not hold it up. -/
theorem openAll_cases {arrivals : List Arrival}
    (rejects : Guarded (arrive kdf cipher) (Rejects kdf cipher) receiver arrivals) :
    (arrivals.filter Arrival.genuine = [] ∧ receiver.openAll kdf cipher arrivals = []) ∨
      ∃ call rest, arrivals.filter Arrival.genuine = call :: rest.filter Arrival.genuine ∧
        Guarded (arrive kdf cipher) (Rejects kdf cipher) (receiver.arrive kdf cipher call) rest ∧
          receiver.openAll kdf cipher arrivals = (receiver.answer kdf cipher call).1 ::
            (receiver.arrive kdf cipher call).openAll kdf cipher rest := by
  induction arrivals with
  | nil => exact .inl ⟨rfl, rfl⟩
  | cons arrival rest ih =>
    obtain ⟨first, others⟩ := rejects
    cases kind : arrival.genuine with
    | true => exact .inr ⟨arrival, rest, by simp [kind], others, by simp [openAll, kind]⟩
    | false =>
      obtain ⟨error, rejected⟩ := first kind
      rw [arrive_of_error rejected] at others
      simpa [openAll, kind, arrive_of_error rejected] using ih others

/-- All messages of a sender whose chain is not used up are sealed, and a receiver that starts at
the same place opens them in order, whatever else it rejects in between. -/
theorem chains_in_lockstep (kdf : Kdf) (correct : cipher.Correct)
    (sameKey : receiver.chainKey = sender.chainKey)
    (samePlace : receiver.iteration = sender.iteration) {messages : List Message}
    (few : sender.iteration.toNat + messages.length ≤ 100000)
    (short : ∀ msg ∈ messages, msg.plaintext.length ≤ cipher.limit) :
    ∃ calls, sender.sealAll kdf cipher messages = .ok calls ∧
      ∀ arrivals, Guarded (arrive kdf cipher) (Rejects kdf cipher) receiver arrivals →
        arrivals.filter Arrival.genuine = calls →
          receiver.openAll kdf cipher arrivals = messages.map (.ok ·.plaintext) := by
  induction messages generalizing sender receiver with
  | nil =>
    refine ⟨[], rfl, fun arrivals rejects delivered => ?_⟩
    rcases openAll_cases rejects with ⟨_, answers⟩ | ⟨call, rest, split, _⟩
    · exact answers
    · cases split.symm.trans delivered
  | cons msg rest ih =>
    rw [length_cons] at few
    have within : sender.iteration.toNat < 100000 := by omega
    obtain ⟨calls, sealed, opens⟩ := @ih
      (sender.advance (derivedSecret kdf nextChainInfo sender.chainKey))
      (receiver.advance (derivedSecret kdf nextChainInfo receiver.chainKey))
      (congrArg (derivedSecret kdf nextChainInfo) sameKey) (congrArg (· + 1) samePlace)
      (by rw [History.advance_toNat within]; omega) (forall_mem_cons.mp short).2
    unfold sealAll
    rw [sealNext_ok kdf (UInt32.lt_iff_toNat_lt.mpr within) (short _ mem_cons_self)]
    refine ⟨_, congrArg (Except.map _) sealed, fun arrivals rejects delivered => ?_⟩
    rcases openAll_cases rejects with ⟨empty, _⟩ | ⟨call, later, split, others, answers⟩
    · cases empty.symm.trans delivered
    · obtain ⟨rfl, remaining⟩ := cons.inj (split.symm.trans delivered)
      have opened := openNext_sealedBlob kdf correct sameKey samePlace msg.nonce msg.ad
        msg.plaintext
      rw [arrive, answer, opened] at others
      rw [answers, arrive, answer, opened, opens later others remaining]
      rfl

/-- A blob that is too short comes before the only message. -/
theorem chains_in_lockstep_stray :
    let chain := SenderKeyChain.new (.fromBytes ⟨List.replicate 16 0, rfl⟩ (countingSecret 1))
    ∃ call, chain.sealAll countingKdf openCipher [⟨⟨List.replicate 12 0, rfl⟩, [], [1]⟩] =
      .ok [call] ∧ chain.openAll countingKdf openCipher [⟨false, [], [], 0⟩, call] = [.ok [1]] := by
  intro chain
  obtain ⟨calls, sealed, opens⟩ := @chains_in_lockstep openCipher chain chain countingKdf
    countingSetting.correct rfl rfl [⟨⟨List.replicate 12 0, rfl⟩, [], [1]⟩] (by decide) (by decide)
  obtain rfl := Except.ok.inj sealed
  exact ⟨_, rfl, opens _ ⟨fun _ => ⟨_, rfl⟩, nofun, trivial⟩ rfl⟩

end SenderKeyChain

end A3Net.ChatCrypto
