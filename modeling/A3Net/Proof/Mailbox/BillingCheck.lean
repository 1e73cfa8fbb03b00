/-
The handler asks for the header of a pledge and never verifies the pledge.
-/

import A3Net.Construction.Mailbox.Billing
import A3Net.Machine.Fallible
import A3Net.Proof.Mailbox.QuotaRace
import A3Net.Proof.Relay.BillingConservation

namespace A3Net.Mailbox

open Cryptography Identity Machine

/-- A request that is answered as a duplicate stores nothing. -/
def StoresEnvelope (result : MemoryStore × Except Rejection EnqueueOutcome) : Prop :=
  ∃ outcome, result.2 = .ok outcome ∧ outcome.duplicate = false

/-- The store has no envelope of the same sender with the same identifier. -/
def Unseen (store : MemoryStore) (envelope : StoredEnvelope) : Prop :=
  ∀ stored ∈ store.bucket envelope.recipientId,
    ¬ (stored.msgId = envelope.msgId ∧ stored.senderId = envelope.senderId)

theorem unseen_iff {store : MemoryStore} {envelope : StoredEnvelope} :
    (store.enqueue envelope).2.duplicate = false ↔ Unseen store envelope := by
  rw [MemoryStore.enqueue]
  cases found : (store.bucket envelope.recipientId).find? envelope.repeats with
  | some existing =>
    have repeats := List.find?_some found
    simp only [StoredEnvelope.repeats, Bool.and_eq_true, decide_eq_true_eq] at repeats
    simp only [Bool.true_eq_false, false_iff]
    exact fun unseen => unseen existing (List.mem_of_find?_eq_some found) repeats
  | none =>
    simp only [true_iff]
    intro stored member
    simpa [StoredEnvelope.repeats] using List.find?_eq_none.mp found stored member

namespace ServerState

variable {state : ServerState} {atCheck atPersist : MemoryStore}

theorem finish_stores_iff {prepared : Except Rejection StoredEnvelope} :
    StoresEnvelope (state.finish prepared atCheck atPersist) ↔
      ∃ envelope, prepared = .ok envelope ∧
        state.checkQuota envelope (atCheck.quotaUsage envelope.recipientId) = .ok () ∧
        Unseen atPersist envelope := by
  unfold finish StoresEnvelope
  cases prepared with
  | error rejection => simp
  | ok envelope =>
    cases room : state.checkQuota envelope (atCheck.quotaUsage envelope.recipientId) with
    | error rejection => simp [room]
    | ok _ => simp [room, unseen_iff]

theorem checkBilling_iff {policy : BillingPolicy} (mandatory : policy.mandatory = true)
    {headers : HeaderMap} :
    checkBilling (some policy) headers = .ok () ↔ ∃ url, pledgeHeader headers = some url := by
  cases header : pledgeHeader headers <;> simp [checkBilling, mandatory, header]

/-- A request of a server with mandatory billing stores an envelope exactly when it has the header
and passes the other checks. -/
theorem stores_iff {policy : BillingPolicy} (mandatory : policy.mandatory = true)
    {headers : HeaderMap} {recipientId : String} {req : EnqueueRequest} {now : DateTime} :
    StoresEnvelope (state.enqueueHandler (some policy) headers recipientId req now atCheck
        atPersist) ↔
      ∃ url sent envelope, pledgeHeader headers = some url ∧
        state.authenticate recipientId req now = .ok sent ∧
        state.build sent req now = .ok envelope ∧
        state.checkQuota envelope (atCheck.quotaUsage envelope.recipientId) = .ok () ∧
        Unseen atPersist envelope := by
  rw [enqueueHandler, finish_stores_iff]
  simp only [bind_ok_iff]
  constructor
  · rintro ⟨envelope, ⟨sent, authentic, _, billed, built⟩, room, unseen⟩
    obtain ⟨url, header⟩ := (checkBilling_iff mandatory).mp billed
    exact ⟨url, sent, envelope, header, authentic, built, room, unseen⟩
  · rintro ⟨url, sent, envelope, header, authentic, built, room, unseen⟩
    have billed := (checkBilling_iff mandatory).mpr ⟨url, header⟩
    exact ⟨envelope, ⟨sent, authentic, (), billed, built⟩, room, unseen⟩

end ServerState

/-- With mandatory billing a request stores an envelope only with an accepted pledge of its sender
exactly when its header has such a pledge or one of the other checks fails. -/
theorem billing_enforced_iff (lib : Library) (state : ServerState) (policy : BillingPolicy)
    (mandatory : policy.mandatory = true) (headers : HeaderMap) (recipientId : String)
    (req : EnqueueRequest) (now : DateTime) (atCheck atPersist : MemoryStore) :
    (StoresEnvelope (state.enqueueHandler (some policy) headers recipientId req now atCheck
        atPersist) →
      ∃ sent url bonus, state.authenticate recipientId req now = .ok sent ∧
        pledgeHeader headers = some url ∧
        policy.verifyPledge lib url sent.sender.toList (now / nanosPerSec) = .ok (some bonus)) ↔
      ∀ url sent envelope, pledgeHeader headers = some url →
        state.authenticate recipientId req now = .ok sent →
        state.build sent req now = .ok envelope →
        state.checkQuota envelope (atCheck.quotaUsage envelope.recipientId) = .ok () →
        Unseen atPersist envelope →
        ∃ bonus, policy.verifyPledge lib url sent.sender.toList (now / nanosPerSec) =
          .ok (some bonus) := by
  rw [ServerState.stores_iff mandatory]
  constructor
  · intro enforced url sent envelope header authentic built room unseen
    obtain ⟨other, text, bonus, same, found, accepted⟩ :=
      enforced ⟨url, sent, envelope, header, authentic, built, room, unseen⟩
    cases authentic.symm.trans same
    cases header.symm.trans found
    exact ⟨bonus, accepted⟩
  · rintro enforced ⟨url, sent, envelope, header, authentic, built, room, unseen⟩
    obtain ⟨bonus, accepted⟩ := enforced url sent envelope header authentic built room unseen
    exact ⟨sent, url, bonus, authentic, header, accepted⟩

def sampleState : ServerState := (sampleServer {}).state

/-- The server takes pledges to the wallet of the sample pledge. -/
def sampleBilling : BillingPolicy where
  serverAddress := Relay.relayWallet.toChecksum Relay.sampleKeccak
  chainId := 1
  mandatory := true

/-- The pledgor sends a message with its pledge in the header. -/
def pledgedRequest : EnqueueRequest :=
  {sampleRequest 0 with
    senderId := String.ofList (Relay.alice.toChecksum Relay.sampleKeccak)}

def pledgedHeaders : HeaderMap := [(pledgeHeaderName, utf8 Relay.samplePledge)]

theorem pledgedHeaders_text : pledgeHeader pledgedHeaders = some Relay.samplePledge.toList := by
  decide +kernel

theorem samplePledge_accepted :
    sampleBilling.verifyPledge Relay.sampleLibrary Relay.samplePledge.toList
      pledgedRequest.senderId.toList (0 / nanosPerSec) = .ok (some 100) := by
  have plain : trim Relay.samplePledge.toList = Relay.samplePledge.toList := by decide +kernel
  have parsed := Relay.samplePledge_parsed
  rw [plain] at parsed
  rw [BillingPolicy.verifyPledge, parsed, Int.zero_ediv]
  dsimp only
  rw [Relay.samplePledge_verified]
  rfl

/-- An envelope is stored with an accepted pledge. -/
theorem pledged_stored :
    sampleBilling.mandatory = true ∧
      StoresEnvelope (sampleState.enqueueHandler (some sampleBilling) pledgedHeaders "bob"
        pledgedRequest 0 {} {}) ∧
      ∃ sent url bonus, sampleState.authenticate "bob" pledgedRequest 0 = .ok sent ∧
        pledgeHeader pledgedHeaders = some url ∧
        sampleBilling.verifyPledge Relay.sampleLibrary url sent.sender.toList (0 / nanosPerSec) =
          .ok (some bonus) := by
  have stores : StoresEnvelope (sampleState.enqueueHandler (some sampleBilling) pledgedHeaders
      "bob" pledgedRequest 0 {} {}) := by
    refine (ServerState.stores_iff rfl).mpr
      ⟨_, _, _, pledgedHeaders_text, rfl, rfl, rfl, by simp [Unseen, MemoryStore.bucket]⟩
  refine ⟨rfl, stores, ?_⟩
  refine (billing_enforced_iff Relay.sampleLibrary sampleState sampleBilling rfl pledgedHeaders
    "bob" pledgedRequest 0 {} {}).mpr (fun url sent envelope header authentic _ _ _ => ?_) stores
  obtain rfl : Relay.samplePledge.toList = url :=
    Option.some.inj (pledgedHeaders_text.symm.trans header)
  obtain rfl : ⟨pledgedRequest.senderId, "bob", [], []⟩ = sent := Except.ok.inj authentic
  exact ⟨100, samplePledge_accepted⟩

/-- The header has the text `free`. -/
def freeHeaders : HeaderMap := [(pledgeHeaderName, utf8 "free")]

/-- A header that is no pledge is enough to store an envelope. -/
theorem billing_bypassed :
    StoresEnvelope (sampleState.enqueueHandler (some sampleBilling) freeHeaders "bob"
        (sampleRequest 0) 0 {} {}) ∧
      ∀ url sender bonus, pledgeHeader freeHeaders = some url →
        sampleBilling.verifyPledge Relay.sampleLibrary url sender (0 / nanosPerSec) ≠
          .ok (some bonus) := by
  constructor
  · exact ⟨_, rfl, rfl⟩
  · intro url sender bonus header accepted
    obtain rfl : ['f', 'r', 'e', 'e'] = url := Option.some.inj (Eq.trans (by decide) header)
    cases accepted

end A3Net.Mailbox
