/-
Each request is a task of its own, and the steps of different tasks may alternate wherever the
handler waits for the store. The optional billing is in a file of its own.
-/

import A3Net.Construction.Mailbox.Storage

namespace A3Net.Mailbox

inductive MailboxError where
  | invalidRecipientId (reason : String)
  | envelopeTooLarge (size max : Nat)
  | quotaExceeded (reason : String)
  | invalidSignature
  | invalidMessageId (reason : String)
  | invalidTimestamp
  | staleSignature (ageSecs maxAgeSecs : Int)
  | internal (reason : String)

/-- A request ends with an error, or its handler panics. -/
inductive Rejection where
  | error (error : MailboxError)
  | panic

structure SizePolicy where
  maxEnvelopeBytes : Nat

def SizePolicy.check (policy : SizePolicy) (envelope : StoredEnvelope) : Except Rejection Unit :=
  let size := envelope.wireSize
  if policy.maxEnvelopeBytes < size then
    .error (.error (.envelopeTooLarge size policy.maxEnvelopeBytes))
  else .ok ()

structure QuotaPolicy where
  maxInflightPerUser : Nat
  maxTotalBytesPerUser : Nat

structure QuotaCheck where
  currentMessageCount : Nat
  currentTotalBytes : Nat
  incomingEnvelopeBytes : Nat

inductive QuotaDecision where
  | accept
  | reject (reason : String)

/-- The sum of the bytes saturates at the greatest word. -/
def QuotaPolicy.check (policy : QuotaPolicy) (check : QuotaCheck) : QuotaDecision :=
  if policy.maxInflightPerUser < check.currentMessageCount + 1 then
    .reject "inflight message count exceeded"
  else
    let nextBytes := min (check.currentTotalBytes + check.incomingEnvelopeBytes) (2 ^ 64 - 1)
    if policy.maxTotalBytesPerUser < nextBytes then .reject "total bytes exceeded"
    else .accept

def nanosPerSec : Nat := 1000000000

/-- An override gives the recipient its own lifetime in seconds. -/
structure RetentionPolicy where
  overrides : Table String Nat := ∅
  minTtlSecs : Nat := 24 * 60 * 60
  maxTtlSecs : Nat := 90 * 24 * 60 * 60

/-- Lifetimes are nanoseconds. A default within the bounds keeps its part of a second. -/
def RetentionPolicy.effectiveTtl (policy : RetentionPolicy) (recipientId : String)
    (defaultTtl : Nat) : Nat :=
  match policy.overrides.lookup recipientId with
  | some ttlSecs =>
    if ttlSecs < policy.minTtlSecs then policy.minTtlSecs * nanosPerSec
    else if policy.maxTtlSecs < ttlSecs then policy.maxTtlSecs * nanosPerSec
    else ttlSecs * nanosPerSec
  | none =>
    let defaultSecs := defaultTtl / nanosPerSec
    if defaultSecs < policy.minTtlSecs then policy.minTtlSecs * nanosPerSec
    else if policy.maxTtlSecs < defaultSecs then policy.maxTtlSecs * nanosPerSec
    else defaultTtl

def defaultMaxInflightPerUser : Nat := 1000

def defaultMaxTotalBytesPerUser : Nat := 64 * 1024 * 1024

def maxSignatureAgeSecs : Nat := 3600

structure MailboxConfig where
  maxEnvelopeBytes : Nat := 1048576
  maxInflightPerUser : Nat := defaultMaxInflightPerUser
  maxTotalBytesPerUser : Nat := defaultMaxTotalBytesPerUser
  defaultTtl : Nat := 30 * 24 * 60 * 60 * nanosPerSec
  maxSignatureAgeSecs : Nat := 300

structure ServerPolicy where
  maxEnvelopeBytes : Nat
  defaultTtl : Nat
  signatureMaxAgeSecs : Int

namespace ServerPolicy

def fromConfig (config : MailboxConfig) : ServerPolicy where
  maxEnvelopeBytes := config.maxEnvelopeBytes
  defaultTtl := config.defaultTtl
  signatureMaxAgeSecs := min config.maxSignatureAgeSecs maxSignatureAgeSecs

def sizePolicy (policy : ServerPolicy) : SizePolicy := ⟨policy.maxEnvelopeBytes⟩

/-- The policy does not know the quota of the configuration. -/
def quotaPolicy (_ : ServerPolicy) : QuotaPolicy :=
  ⟨defaultMaxInflightPerUser, defaultMaxTotalBytesPerUser⟩

end ServerPolicy

/-- The checks of a request before it reaches the store. The first one gives the checksummed text of
an address. -/
structure Auth where
  validateRecipientId : String → Except MailboxError String
  validateMsgId : String → Except MailboxError Unit
  decodeBase64 : String → Except String Bytes
  verifySenderSignature : (sender recipient msgId : String) → (ciphertext signature : Bytes) →
    Except MailboxError Unit
  verifySenderSignatureWithTimestamp : (sender recipient msgId : String) →
    (ciphertext signature : Bytes) → (signedAt maxAge : Int) → (now : DateTime) →
    Except MailboxError Unit

structure EnqueueRequest where
  senderId : String
  msgId : String
  ciphertextB64 : String
  senderSignatureB64 : String
  ttlSecs : Option Nat
  timestamp : Option Int

/-- These are the parts of a request whose sender was verified. -/
structure Authenticated where
  sender : String
  recipient : String
  ciphertext : Bytes
  signature : Bytes

/-- The calendar of the date library ends at the latest time. -/
structure ServerState where
  auth : Auth
  policy : ServerPolicy
  retention : RetentionPolicy
  latest : DateTime

namespace ServerState

/-- A lifetime of more than so many milliseconds counts as thirty days. -/
def lifetime (ttl : Nat) : Nat :=
  if ttl ≤ (2 ^ 63 - 1) * 1000000 then ttl else 30 * 24 * 60 * 60 * nanosPerSec

variable (state : ServerState)

/-- The first five steps of the handler end with the check of the signature. -/
def authenticate (recipientId : String) (req : EnqueueRequest) (now : DateTime) :
    Except Rejection Authenticated := do
  let recipient ← (state.auth.validateRecipientId recipientId).mapError Rejection.error
  (state.auth.validateMsgId req.msgId).mapError Rejection.error
  let ciphertext ← (state.auth.decodeBase64 req.ciphertextB64).mapError fun reason =>
    Rejection.error (.invalidMessageId s!"ciphertext_b64 decode: {reason}")
  let signature ← (state.auth.decodeBase64 req.senderSignatureB64).mapError fun _ =>
    Rejection.error .invalidSignature
  let sender ← (state.auth.validateRecipientId req.senderId).mapError Rejection.error
  match req.timestamp with
  | some signedAt =>
    (state.auth.verifySenderSignatureWithTimestamp sender recipient req.msgId ciphertext
      signature signedAt state.policy.signatureMaxAgeSecs now).mapError Rejection.error
  | none =>
    (state.auth.verifySenderSignature sender recipient req.msgId ciphertext
      signature).mapError Rejection.error
  .ok ⟨sender, recipient, ciphertext, signature⟩

/-- An envelope that would outlive the calendar panics, and its size is checked before the quota. -/
def build (sent : Authenticated) (req : EnqueueRequest) (now : DateTime) :
    Except Rejection StoredEnvelope :=
  let baseTtl := (req.ttlSecs.map (· * nanosPerSec)).getD state.policy.defaultTtl
  let expiresAt := now + lifetime (state.retention.effectiveTtl sent.recipient baseTtl)
  if state.latest < expiresAt then .error .panic
  else
    let envelope : StoredEnvelope :=
      ⟨sent.sender, sent.recipient, req.msgId, sent.ciphertext, sent.signature, 0, now, expiresAt⟩
    match state.policy.sizePolicy.check envelope with
    | .error rejection => .error rejection
    | .ok () => .ok envelope

/-- The handler checks the request and builds its envelope before it asks the store. -/
def prepare (recipientId : String) (req : EnqueueRequest) (now : DateTime) :
    Except Rejection StoredEnvelope := do
  state.build (← state.authenticate recipientId req now) req now

/-- The quota check sees the usage that the store gave. -/
def checkQuota (envelope : StoredEnvelope) (usage : QuotaUsage) : Except Rejection Unit :=
  match state.policy.quotaPolicy.check
      ⟨usage.messageCount, usage.totalBytes, envelope.wireSize⟩ with
  | .reject reason => .error (.error (.quotaExceeded reason))
  | .accept => .ok ()

end ServerState

/-- A handler waits for the usage, then for the store, and then it answers. -/
inductive HandlerPhase where
  | idle
  | prepared (envelope : StoredEnvelope)
  | checked (envelope : StoredEnvelope) (usage : QuotaUsage)
  | answered (response : Except Rejection EnqueueOutcome)

structure MailboxServer (Task : Type) where
  state : ServerState
  store : MemoryStore
  phase : Task → HandlerPhase

/-- The first three events are the steps of one handler. The other two are calls of recipients and
of the sweeper. -/
inductive ServerEvent (Task : Type) where
  | receive (task : Task) (recipientId : String) (req : EnqueueRequest) (now : DateTime)
  | check (task : Task)
  | persist (task : Task)
  | ack (recipientId : String) (msgIds : List String)
  | sweep (now : DateTime)

namespace MailboxServer

variable {Task : Type} [DecidableEq Task]

def start (state : ServerState) : MailboxServer Task := ⟨state, {}, fun _ => .idle⟩

variable (server : MailboxServer Task) (task : Task)

def goto (phase : HandlerPhase) : MailboxServer Task :=
  {server with phase := Function.update server.phase task phase}

def receive (recipientId : String) (req : EnqueueRequest) (now : DateTime) :
    MailboxServer Task :=
  match server.phase task with
  | .idle =>
    match server.state.prepare recipientId req now with
    | .error rejection => server.goto task (.answered (.error rejection))
    | .ok envelope => server.goto task (.prepared envelope)
  | _ => server

def check : MailboxServer Task :=
  match server.phase task with
  | .prepared envelope =>
    let usage := server.store.quotaUsage envelope.recipientId
    match server.state.checkQuota envelope usage with
    | .error rejection => server.goto task (.answered (.error rejection))
    | .ok () => server.goto task (.checked envelope usage)
  | _ => server

def persist : MailboxServer Task :=
  match server.phase task with
  | .checked envelope _ =>
    let (store, outcome) := server.store.enqueue envelope
    {server with store}.goto task (.answered (.ok outcome))
  | _ => server

def step : ServerEvent Task → MailboxServer Task
  | .receive task recipientId req now => server.receive task recipientId req now
  | .check task => server.check task
  | .persist task => server.persist task
  | .ack recipientId msgIds => {server with store := (server.store.ack recipientId msgIds).1}
  | .sweep now => {server with store := (server.store.purgeExpired now).1}

end MailboxServer
end A3Net.Mailbox
