import A3Net.Construction.Mailbox.Storage
import A3Net.Machine.Cursor

namespace A3Net.Mailbox

open Machine

/-- A delivery is an envelope without its times, which a store may read back otherwise. -/
structure Delivery where
  senderId : String
  recipientId : String
  msgId : String
  ciphertext : Bytes
  senderSignature : Bytes
  sequence : Nat

def StoredEnvelope.delivery (envelope : StoredEnvelope) : Delivery :=
  ⟨envelope.senderId, envelope.recipientId, envelope.msgId, envelope.ciphertext,
    envelope.senderSignature, envelope.sequence⟩

/-- The watch follows one recipient. The new envelopes of the recipient, what it received and the
times of the purges are history; the recipient keeps only its watermark and what it has to
acknowledge. -/
structure Watch (Store : Type) where
  store : Store
  allocated : List StoredEnvelope := []
  received : List Delivery := []
  watermark : Watermark := 0
  unconfirmed : List String := []
  purges : List DateTime := []

/-- Anyone makes the first four calls with any arguments. The watched recipient makes the other
two: it pulls from its watermark, and it acknowledges what it received. -/
inductive Call where
  | enqueue (envelope : StoredEnvelope) (now : DateTime)
  | pull (recipientId : String) (since : Watermark) (limit : Nat) (now : DateTime)
  | ack (recipientId : String) (msgIds : List String)
  | purgeExpired (now : DateTime)
  | receive (limit : Nat) (now : DateTime)
  | confirm

variable {Store : Type} (api : MailboxStore Store) (owner : String)

/-- The outcome of a call of `enqueue` gives a new envelope its sequence. -/
def newSequence (outcome : Option EnqueueOutcome) : Option Nat :=
  outcome.bind fun outcome => if outcome.duplicate then none else some outcome.sequence

/-- The new envelope of the recipient has the sequence of the outcome. -/
def allocate (envelope : StoredEnvelope) (outcome : Option EnqueueOutcome) : List StoredEnvelope :=
  if envelope.recipientId = owner then
    ((newSequence outcome).map fun sequence => {envelope with sequence}).toList
  else []

variable (watch : Watch Store)

/-- The recipient moves its watermark to the last sequence that it received. -/
def receive (limit : Nat) (now : DateTime) : Watch Store :=
  let batch := (api.pull watch.store owner watch.watermark limit now).map StoredEnvelope.delivery
  {watch with received := watch.received ++ batch,
              watermark := advance Delivery.sequence watch.watermark batch,
              unconfirmed := watch.unconfirmed ++ batch.map Delivery.msgId}

def step : Call → Watch Store
  | .enqueue envelope now =>
    let (store, outcome) := api.enqueue watch.store envelope now
    {watch with store, allocated := watch.allocated ++ allocate owner envelope outcome}
  | .pull _ _ _ _ => watch
  | .ack recipientId msgIds => {watch with store := (api.ack watch.store recipientId msgIds).1}
  | .purgeExpired now =>
    {watch with store := (api.purgeExpired watch.store now).1, purges := now :: watch.purges}
  | .receive limit now => receive api owner watch limit now
  | .confirm =>
    {watch with store := (api.ack watch.store owner watch.unconfirmed).1, unconfirmed := []}

/-- The recipient receives a delivery when enough further pulls bring it, whatever their positive
limits are. -/
def Receives (delivery : Delivery) : Prop :=
  ∀ pulls : List (Nat × DateTime), watch.allocated.length ≤ pulls.length →
    (∀ pull ∈ pulls, 0 < pull.1) →
    delivery ∈ (pulls.foldl (fun watch pull => receive api owner watch pull.1 pull.2) watch).received

/-- A purge came after the expiry of the envelope. -/
def Expired (envelope : StoredEnvelope) : Prop :=
  ∃ now ∈ watch.purges, envelope.expiresAt ≤ now

/-- The sequences of new envelopes increase, nothing comes twice, and each unexpired envelope
comes. -/
structure Delivers (watch : Watch Store) : Prop where
  increasing : Increasing StoredEnvelope.sequence watch.allocated
  once : watch.received.Nodup
  complete : ∀ envelope ∈ watch.allocated,
    Receives api owner watch envelope.delivery ∨ Expired watch envelope

end A3Net.Mailbox
