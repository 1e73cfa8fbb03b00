import A3Net.Construction.Security.Receiving
import A3Net.Proof.Security.MessageSecrecy

namespace A3Net.Security

open Cryptography List ReceivingSession UInt64

/-- The chain key moves on once for each message. -/
def chainAt (base : Bytes) : Nat → Bytes
  | 0 => base
  | count + 1 => (blake3 (chainAt base count ++ [1])).bytes

def messageKeyAt (base : Bytes) (number : UInt64) : Bytes :=
  deriveMessageKey (chainAt base number.toNat) number

/-- The receiver has moved past the delivered messages, and it keeps the keys of the other messages
that it has moved past. -/
structure Tracks (base : Bytes) (delivered : List UInt64) (session : ReceivingSession) : Prop where
  active : session.state = .active
  chain : session.keyState.chainKey = chainAt base session.receiveMessageNumber.toNat
  behind : ∀ number ∈ delivered, number < session.receiveMessageNumber
  stored : ∀ number, session.skippedKeys.lookup number =
    if number < session.receiveMessageNumber ∧ number ∉ delivered then
      some (messageKeyAt base number)
    else none

namespace ReceivingSession

variable {number : UInt64}

theorem succ_toNat {limit : UInt64} (below : number < limit) :
    (number + 1).toNat = number.toNat + 1 := by
  have strict := lt_iff_toNat_lt.mp below
  have bound := limit.toNat_lt
  rw [UInt64.toNat_add, toNat_one]
  omega

theorem lt_succ_iff {limit : UInt64} (below : number < limit) {other : UInt64} :
    other < number + 1 ↔ other < number ∨ other = number := by
  rw [lt_iff_toNat_lt, lt_iff_toNat_lt, succ_toNat below, ← UInt64.toNat_inj]
  omega

variable {base : Bytes} {delivered : List UInt64} {session : ReceivingSession} {limit : UInt64}
  (messageNumber : UInt64)

theorem countReceived_chain
    (chain : session.keyState.chainKey = chainAt base session.receiveMessageNumber.toNat)
    (below : session.receiveMessageNumber < limit) :
    session.countReceived.keyState.chainKey =
      chainAt base (session.receiveMessageNumber + 1).toNat := by
  rw [succ_toNat below]
  show (blake3 (session.keyState.chainKey ++ [1])).bytes = _
  rw [chain]
  rfl

/-- A skipped key belongs to a message that is not delivered yet. -/
theorem skipKey_tracks (tracks : Tracks base delivered session)
    (below : session.receiveMessageNumber < limit) : Tracks base delivered session.skipKey where
  active := tracks.active
  chain := countReceived_chain tracks.chain below
  behind number member := (lt_succ_iff below).mpr (Or.inl (tracks.behind number member))
  stored number := by
    show (session.skippedKeys.insert session.receiveMessageNumber _).lookup number =
      if number < session.receiveMessageNumber + 1 ∧ number ∉ delivered then _ else none
    rw [Table.lookup_insert_eq]
    by_cases next : number = session.receiveMessageNumber
    · have fresh : number ∉ delivered := by
        intro member
        have earlier := tracks.behind number member
        rw [next] at earlier
        exact UInt64.lt_irrefl _ earlier
      have within := (lt_succ_iff below).mpr (Or.inr next)
      rw [if_pos next, if_pos ⟨within, fresh⟩, tracks.chain, next]
      rfl
    · rw [if_neg next, tracks.stored]
      simp only [lt_succ_iff below, next, or_false]

/-- The loop ends at the number of the message. -/
theorem skipKeys_tracks (rounds : Nat) (tracks : Tracks base delivered session)
    (ahead : session.receiveMessageNumber ≤ messageNumber)
    (counted : rounds = messageNumber.toNat - session.receiveMessageNumber.toNat) :
    Tracks base delivered (session.skipKeys messageNumber rounds) ∧
      (session.skipKeys messageNumber rounds).receiveMessageNumber = messageNumber := by
  rw [le_iff_toNat_le] at ahead
  induction rounds generalizing session with
  | zero =>
    refine ⟨tracks, UInt64.toNat_inj.mp ?_⟩
    show session.receiveMessageNumber.toNat = messageNumber.toNat
    omega
  | succ rounds ih =>
    have below : session.receiveMessageNumber < messageNumber := by
      rw [lt_iff_toNat_lt]
      omega
    have next : session.skipKey.receiveMessageNumber.toNat =
        session.receiveMessageNumber.toNat + 1 := succ_toNat below
    rw [skipKeys, if_pos below]
    apply ih (skipKey_tracks tracks below)
    · rw [next]
      rw [lt_iff_toNat_lt] at below
      exact below
    · rw [next]
      omega

theorem skipTo_tracks (tracks : Tracks base delivered session)
    (ahead : session.receiveMessageNumber ≤ messageNumber) :
    Tracks base delivered (session.skipTo messageNumber) ∧
      (session.skipTo messageNumber).receiveMessageNumber = messageNumber :=
  skipKeys_tracks messageNumber _ tracks ahead rfl

/-- The message opens under the key of its number. -/
def Opens (cipher : OpeningCipher) (base : Bytes) (msg : EncryptedMessage)
    (plaintext : Bytes) : Prop :=
  decryptAead cipher msg.ciphertext (messageKeyAt base msg.messageNumber) = .ok plaintext

variable (cipher : OpeningCipher) {now : Int}

section

variable (tracks : Tracks base delivered session)
include tracks

variable {msg : EncryptedMessage}

theorem decrypt_stored (past : msg.messageNumber < session.receiveMessageNumber)
    (missing : msg.messageNumber ∉ delivered) :
    session.decrypt cipher now msg =
      (decryptAead cipher msg.ciphertext (messageKeyAt base msg.messageNumber),
        {session with skippedKeys := session.skippedKeys.erase msg.messageNumber}) := by
  have found := tracks.stored msg.messageNumber
  rw [if_pos ⟨past, missing⟩] at found
  rw [decrypt, if_neg (not_not.mpr tracks.active), found]

theorem decrypt_ahead (ahead : session.receiveMessageNumber ≤ msg.messageNumber) :
    session.decrypt cipher now msg =
      match decryptAead cipher msg.ciphertext (messageKeyAt base msg.messageNumber) with
      | .error error => (.error error, session.skipTo msg.messageNumber)
      | .ok plaintext =>
        (.ok plaintext,
          {(session.skipTo msg.messageNumber).countReceived with lastUsed := now}) := by
  have absent := tracks.stored msg.messageNumber
  rw [if_neg fun both => absurd both.1 (UInt64.not_lt.mpr ahead)] at absent
  obtain ⟨skipped, arrived⟩ := skipTo_tracks msg.messageNumber tracks ahead
  have key : deriveMessageKey (session.skipTo msg.messageNumber).keyState.chainKey
      (session.skipTo msg.messageNumber).receiveMessageNumber =
        messageKeyAt base msg.messageNumber := by
    rw [skipped.chain, arrived]
    rfl
  rw [decrypt, if_neg (not_not.mpr tracks.active), absent]
  cases opened : decryptAead cipher msg.ciphertext
      (messageKeyAt base msg.messageNumber) <;> simp only [key, opened]

/-- A used key is the only one that goes. -/
theorem erase_tracks (past : number < session.receiveMessageNumber) :
    Tracks base (number :: delivered)
      {session with skippedKeys := session.skippedKeys.erase number} where
  active := tracks.active
  chain := tracks.chain
  behind := forall_mem_cons.mpr ⟨past, tracks.behind⟩
  stored other := by
    show (session.skippedKeys.erase number).lookup other = _
    by_cases same : other = number
    · rw [same, AList.lookup_erase, if_neg]
      exact fun both => both.2 mem_cons_self
    · rw [AList.lookup_erase_ne same, tracks.stored]
      simp [same]

theorem countReceived_tracks (below : session.receiveMessageNumber < limit) (now : Int) :
    Tracks base (session.receiveMessageNumber :: delivered)
      {session.countReceived with lastUsed := now} where
  active := tracks.active
  chain := countReceived_chain tracks.chain below
  behind other member := by
    rcases mem_cons.mp member with same | earlier
    · exact (lt_succ_iff below).mpr (Or.inr same)
    · exact (lt_succ_iff below).mpr (Or.inl (tracks.behind other earlier))
  stored other := by
    show session.skippedKeys.lookup other =
      if other < session.receiveMessageNumber + 1 ∧ _ then _ else _
    rw [tracks.stored]
    simp only [lt_succ_iff below, mem_cons, not_or]
    by_cases same : other = session.receiveMessageNumber
    · simp [same]
    · simp [same]

/-- A genuine message that comes for the first time decrypts. -/
theorem decrypt_genuine {plaintext : Bytes} (opens : Opens cipher base msg plaintext)
    (missing : msg.messageNumber ∉ delivered) (below : msg.messageNumber < limit) :
    (session.decrypt cipher now msg).1 = .ok plaintext ∧
      Tracks base (msg.messageNumber :: delivered) (session.decrypt cipher now msg).2 ∧
      (session.decrypt cipher now msg).2.receiveMessageNumber.toNat =
        max session.receiveMessageNumber.toNat (msg.messageNumber.toNat + 1) := by
  by_cases past : msg.messageNumber < session.receiveMessageNumber
  · rw [decrypt_stored cipher tracks past missing]
    refine ⟨opens, erase_tracks tracks past, ?_⟩
    rw [lt_iff_toNat_lt] at past
    show session.receiveMessageNumber.toNat = _
    omega
  · have ahead := UInt64.not_lt.mp past
    obtain ⟨skipped, arrived⟩ := skipTo_tracks msg.messageNumber tracks ahead
    rw [decrypt_ahead cipher tracks ahead, opens]
    refine ⟨rfl, ?_, ?_⟩
    · have counted := countReceived_tracks skipped (arrived ▸ below) now
      rw [arrived] at counted
      exact counted
    · show ((session.skipTo msg.messageNumber).receiveMessageNumber + 1).toNat = _
      rw [arrived, succ_toNat below]
      rw [le_iff_toNat_le] at ahead
      omega

end

/-- Genuine messages decrypt one after the other. -/
theorem decryptAll_genuine {arrivals : List (Int × EncryptedMessage × Bytes)}
    (tracks : Tracks base delivered session)
    (opens : ∀ arrival ∈ arrivals, Opens cipher base arrival.2.1 arrival.2.2)
    (once : (arrivals.map fun arrival => arrival.2.1.messageNumber).Nodup)
    (missing : ∀ arrival ∈ arrivals, arrival.2.1.messageNumber ∉ delivered)
    (below : ∀ arrival ∈ arrivals, arrival.2.1.messageNumber < limit)
    (reach : session.receiveMessageNumber ≤ limit) :
    let received := session.decryptAll cipher (arrivals.map fun arrival => (arrival.1, arrival.2.1))
    received.1 = arrivals.map (fun arrival => .ok arrival.2.2) ∧
      Tracks base ((arrivals.map fun arrival => arrival.2.1.messageNumber).reverse ++ delivered)
        received.2 ∧
      received.2.receiveMessageNumber ≤ limit := by
  induction arrivals generalizing session delivered with
  | nil => exact ⟨rfl, tracks, reach⟩
  | cons arrival rest ih =>
    obtain ⟨now, msg, plaintext⟩ := arrival
    obtain ⟨others, once⟩ := nodup_cons.mp once
    have first := below _ mem_cons_self
    obtain ⟨decrypted, next, position⟩ := decrypt_genuine cipher tracks
      (opens _ mem_cons_self) (missing _ mem_cons_self) first
    have reached : (session.decrypt cipher now msg).2.receiveMessageNumber ≤ limit := by
      rw [le_iff_toNat_le] at reach ⊢
      rw [lt_iff_toNat_lt] at first
      rw [position]
      exact max_le reach first
    obtain ⟨results, final, last⟩ := ih next
      (forall_mem_cons.mp opens).2 once
      (fun other member repeated => by
        rcases mem_cons.mp repeated with same | earlier
        · exact others (mem_map.mpr ⟨other, member, same⟩)
        · exact missing other (mem_cons_of_mem _ member) earlier)
      (forall_mem_cons.mp below).2 reached
    refine ⟨congrArg₂ List.cons decrypted results, ?_, last⟩
    · rw [map_cons, reverse_cons, append_assoc]
      exact final

end ReceivingSession

/-- Opening undoes sealing. -/
def OpeningCipher.Correct (cipher : OpeningCipher) : Prop :=
  ∀ key nonce plaintext, cipher.decrypt key nonce (cipher.encrypt key nonce plaintext) =
    some plaintext

/-- A sender draws nonces of the right size, and it numbers its messages with 64 bits. -/
structure Outgoing where
  entries : List (Surroundings × Bytes)
  nonces : ∀ entry ∈ entries, entry.1.nonce.length = nonceSize
  numbered : entries.length < 2 ^ 64

variable {count : Nat}

namespace Session

variable {cipher : OpeningCipher} {session : Session}

variable {msg : EncryptedMessage} {plaintext base : Bytes} {around : Surroundings}

theorem encrypt_ok (sent : (session.encrypt cipher.toAes256Gcm around plaintext).1 = .ok msg) :
    msg.messageNumber = session.keyState.sendMessageNumber ∧
      msg.ciphertext = around.nonce ++ cipher.encrypt
        (deriveMessageKey session.keyState.chainKey session.keyState.sendMessageNumber)
        around.nonce plaintext ∧
      (session.encrypt cipher.toAes256Gcm around plaintext).2 =
        session.advanceChainKey.countSent around.usedAt := by
  have active : session.state = .active := by
    by_contra inactive
    rw [Session.encrypt, if_pos inactive] at sent
    cases sent
  rw [encrypt_active cipher.toAes256Gcm around active] at sent
  split at sent
  · cases sent
  · next short =>
    obtain rfl := Except.ok.inj sent
    refine ⟨rfl, rfl, ?_⟩
    have sized : (deriveMessageKey session.keyState.chainKey
        session.keyState.sendMessageNumber).length = keySize := (blake3 _).size
    simp only [encrypt, encryptAead, active, sized, short, ne_eq, not_true_eq_false, if_false]

/-- A sealed message opens under its own key. -/
theorem opens_of_sealed (correct : cipher.Correct) {nonce : Bytes} (size : nonce.length = nonceSize)
    (sealed : msg.ciphertext =
      nonce ++ cipher.encrypt (messageKeyAt base msg.messageNumber) nonce plaintext) :
    Opens cipher base msg plaintext := by
  have key : (messageKeyAt base msg.messageNumber).length = keySize := (blake3 _).size
  have long : ¬ msg.ciphertext.length < nonceSize := by
    rw [sealed, length_append]
    omega
  unfold Opens decryptAead
  rw [if_neg long, if_neg (not_not.mpr key), sealed, take_left' size, drop_left' size, correct]

/-- The sender has sent so many messages of the chain. -/
structure HasSent (session : Session) (base : Bytes) (count : Nat) : Prop where
  chain : session.keyState.chainKey = chainAt base count
  number : session.keyState.sendMessageNumber.toNat = count

/-- One message has the next number and opens under the key of that number. -/
theorem encrypt_step (correct : cipher.Correct) (before : session.HasSent base count)
    (below : count + 1 < 2 ^ 64) (size : around.nonce.length = nonceSize)
    (sent : (session.encrypt cipher.toAes256Gcm around plaintext).1 = .ok msg) :
    msg.messageNumber.toNat = count ∧
      Opens cipher base msg plaintext ∧
      (session.encrypt cipher.toAes256Gcm around plaintext).2.HasSent base (count + 1) := by
  obtain ⟨named, sealed, next⟩ := encrypt_ok sent
  have number : msg.messageNumber.toNat = count := by rw [named, before.number]
  refine ⟨number, ?_, ?_, ?_⟩
  · have key : deriveMessageKey session.keyState.chainKey session.keyState.sendMessageNumber =
        messageKeyAt base msg.messageNumber := by
      rw [messageKeyAt, number, before.chain, named]
    exact opens_of_sealed correct size (key ▸ sealed)
  · rw [next]
    show (blake3 (session.keyState.chainKey ++ [1])).bytes = _
    rw [before.chain]
    rfl
  · rw [next]
    show (session.keyState.sendMessageNumber + 1).toNat = _
    rw [UInt64.toNat_add, before.number, toNat_one]
    omega

/-- The messages of a sender have consecutive numbers, and each opens under its own key. -/
theorem encryptAll_ok (correct : cipher.Correct) (entries : List (Surroundings × Bytes))
    (messages : List EncryptedMessage)
    (nonces : ∀ entry ∈ entries, entry.1.nonce.length = nonceSize)
    (numbered : count + entries.length < 2 ^ 64) (before : session.HasSent base count)
    (sent : (session.encryptAll cipher.toAes256Gcm entries).1 = messages.map .ok) :
    messages.map (fun msg => msg.messageNumber.toNat) =
        List.range' count entries.length ∧
      (∀ pair ∈ messages.zip (entries.map Prod.snd), Opens cipher base pair.1 pair.2) ∧
      (session.encryptAll cipher.toAes256Gcm entries).2.keyState.chainKey =
        chainAt base (count + entries.length) := by
  induction entries generalizing session messages count with
  | nil =>
    obtain rfl := map_eq_nil_iff.mp sent.symm
    exact ⟨rfl, by simp, before.chain⟩
  | cons entry rest ih =>
    obtain ⟨around, plaintext⟩ := entry
    rw [length_cons] at numbered
    cases messages with
    | nil => cases sent
    | cons msg messages =>
      obtain ⟨first, others⟩ := List.cons.inj sent
      obtain ⟨number, opened, next⟩ := encrypt_step correct before (by omega)
        (nonces _ mem_cons_self) first
      obtain ⟨numbers, opens, final⟩ := ih messages
        (forall_mem_cons.mp nonces).2 (by omega) next
        others
      refine ⟨?_, ?_, ?_⟩
      · rw [map_cons, number, numbers, length_cons, range'_succ]
      · exact forall_mem_cons.mpr ⟨opened, opens⟩
      · rw [length_cons, show count + (rest.length + 1) = count + 1 + rest.length by omega]
        exact final

end Session

/-- A session starts with a chain key and has not sent or received anything. -/
structure ReceivingSession.Starts (session : ReceivingSession) (chainKey : Bytes) : Prop where
  active : session.state = .active
  chain : session.keyState.chainKey = chainKey
  unsent : session.keyState.sendMessageNumber = 0
  unreceived : session.receiveMessageNumber = 0

variable {session : ReceivingSession}

theorem ReceivingSession.Starts.tracks {chainKey : Bytes} (starts : session.Starts chainKey)
    (unskipped : session.skippedKeys = ∅) : Tracks chainKey [] session where
  active := starts.active
  chain := by
    rw [starts.chain, starts.unreceived]
    rfl
  behind := by simp
  stored number := by
    rw [unskipped, starts.unreceived, if_neg fun both => UInt64.not_lt_zero both.1]
    rfl

/-- Two sessions start with one chain key, and one of them has encrypted its plaintexts. -/
structure Exchange where
  cipher : OpeningCipher
  correct : cipher.Correct
  chainKey : Bytes
  sender : ReceivingSession
  senderStarts : sender.Starts chainKey
  receiver : ReceivingSession
  receiverStarts : receiver.Starts chainKey
  outgoing : Outgoing
  messages : List EncryptedMessage
  sent : (sender.encryptAll cipher.toAes256Gcm outgoing.entries).1 = messages.map .ok

namespace Exchange

variable (exchange : Exchange)

/-- Each message is paired with its plaintext. -/
def pairs : List (EncryptedMessage × Bytes) :=
  exchange.messages.zip (exchange.outgoing.entries.map Prod.snd)

/-- This is the sender after its last message. -/
def sentAll : Session :=
  (exchange.sender.encryptAll exchange.cipher.toAes256Gcm exchange.outgoing.entries).2

variable (exchange : Exchange)

theorem messages_ok :
    exchange.messages.map (fun msg => msg.messageNumber.toNat) =
        List.range exchange.outgoing.entries.length ∧
      (∀ pair ∈ exchange.pairs, Opens exchange.cipher exchange.chainKey pair.1 pair.2) ∧
      exchange.sentAll.keyState.chainKey =
        chainAt exchange.chainKey exchange.outgoing.entries.length := by
  have unsent : exchange.sender.keyState.sendMessageNumber.toNat = 0 := by
    rw [exchange.senderStarts.unsent]
    rfl
  have sent := Session.encryptAll_ok exchange.correct exchange.outgoing.entries exchange.messages
    exchange.outgoing.nonces (by simpa using exchange.outgoing.numbered)
    ⟨exchange.senderStarts.chain, unsent⟩ exchange.sent
  rw [Nat.zero_add, ← range_eq_range'] at sent
  exact sent

/-- The numbers of the messages lie below their count. -/
def limit : UInt64 := ofNat exchange.outgoing.entries.length

theorem limit_toNat : exchange.limit.toNat = exchange.outgoing.entries.length :=
  toNat_ofNat_of_lt' exchange.outgoing.numbered

theorem pairs_numbers :
    exchange.pairs.map (fun pair => pair.1.messageNumber.toNat) =
      List.range exchange.outgoing.entries.length := by
  obtain ⟨numbers, _, _⟩ := exchange.messages_ok
  have length : exchange.messages.length = exchange.outgoing.entries.length := by
    simpa using congrArg List.length numbers
  have firsts : exchange.pairs.map Prod.fst = exchange.messages :=
    map_fst_zip (by simp [length])
  rw [← numbers, ← firsts, map_map]
  rfl

end Exchange

/-- When everything is delivered, nothing is put aside, and the receiver is where the sender is. -/
theorem tracks_complete {base : Bytes} {delivered : List UInt64}
    (tracks : Tracks base delivered session) (reach : session.receiveMessageNumber.toNat ≤ count)
    (all : ∀ number : UInt64, number ∈ delivered ↔ number.toNat < count) :
    session.skippedKeys = ∅ ∧ session.keyState.chainKey = chainAt base count := by
  have position : session.receiveMessageNumber.toNat = count := by
    by_contra other
    have short : session.receiveMessageNumber.toNat < count := by omega
    exact UInt64.lt_irrefl _ (tracks.behind _ ((all _).mpr short))
  constructor
  · apply Table.eq_empty_of_lookup
    intro number
    rw [tracks.stored, if_neg]
    rintro ⟨past, missing⟩
    rw [lt_iff_toNat_lt, position] at past
    exact missing ((all number).mpr past)
  · rw [tracks.chain, position]

/-- Every message decrypts in whatever order the messages arrive, when the receiver starts without a
key that is put aside. -/
theorem out_of_order_delivery (exchange : Exchange)
    (unskipped : exchange.receiver.skippedKeys = ∅)
    (arrivals : List (Int × EncryptedMessage × Bytes))
    (order : (arrivals.map Prod.snd).Perm exchange.pairs) :
    let received := exchange.receiver.decryptAll exchange.cipher
      (arrivals.map fun arrival => (arrival.1, arrival.2.1))
    received.1 = arrivals.map (fun arrival => .ok arrival.2.2) ∧
      received.2.skippedKeys = ∅ ∧
      received.2.keyState.chainKey = exchange.sentAll.keyState.chainKey := by
  obtain ⟨_, opens, final⟩ := exchange.messages_ok
  have injective : Function.Injective UInt64.toNat := fun _ _ => UInt64.toNat_inj.mp
  have range := order.map fun pair => pair.1.messageNumber.toNat
  rw [exchange.pairs_numbers, map_map] at range
  have below : ∀ number : UInt64,
      number ∈ arrivals.map (fun arrival => arrival.2.1.messageNumber) ↔
        number.toNat < exchange.outgoing.entries.length := by
    intro number
    rw [← mem_range, ← range.mem_iff, ← mem_map_of_injective injective, map_map]
    rfl
  have once : (arrivals.map fun arrival => arrival.2.1.messageNumber).Nodup := by
    apply List.Nodup.of_map toNat
    rw [map_map]
    exact range.nodup_iff.mpr nodup_range
  obtain ⟨results, tracks, reach⟩ := decryptAll_genuine exchange.cipher
    (exchange.receiverStarts.tracks unskipped)
    (fun arrival member => opens arrival.2 (order.mem_iff.mp (mem_map_of_mem member))) once
    (fun _ _ => not_mem_nil)
    (fun arrival member => by
      rw [lt_iff_toNat_lt, exchange.limit_toNat]
      exact (below _).mp (mem_map_of_mem member))
    (by
      rw [exchange.receiverStarts.unreceived]
      exact UInt64.zero_le)
  rw [le_iff_toNat_le, exchange.limit_toNat] at reach
  have complete := tracks_complete tracks reach fun number => by simpa using below number
  rw [final]
  exact ⟨results, complete⟩

/-- This cipher of the samples puts the key before the plaintext. -/
def tagCipher : OpeningCipher where
  encrypt key _ plaintext := key ++ plaintext
  invalidLength := "Invalid Length"
  failure := "aead::Error"
  decrypt key _ sealed := key.isPrefixOf? sealed

theorem tagCipher_correct : tagCipher.Correct := by
  intro key nonce plaintext
  show key.isPrefixOf? (key ++ plaintext) = some plaintext
  simp

def tagSurroundings : Surroundings := ⟨List.replicate 12 0, 0, 0⟩

def startingSession : ReceivingSession where
  id := "s"
  state := .active
  keyState := ⟨List.replicate 32 0, 0⟩
  lastUsed := 0

theorem startingSession_starts : startingSession.Starts (List.replicate 32 0) :=
  ⟨rfl, rfl, rfl, rfl⟩

def twoPlaintexts : Outgoing where
  entries := [(tagSurroundings, [1]), (tagSurroundings, [2])]
  nonces := by decide
  numbered := by decide

def firstMessage : EncryptedMessage :=
  startingSession.sealedMessage tagCipher.toAes256Gcm tagSurroundings [1]

def secondMessage : EncryptedMessage :=
  (startingSession.encrypt tagCipher.toAes256Gcm tagSurroundings [1]).2.sealedMessage
    tagCipher.toAes256Gcm tagSurroundings [2]

theorem twoPlaintexts_sent :
    (startingSession.encryptAll tagCipher.toAes256Gcm twoPlaintexts.entries).1 =
      [firstMessage, secondMessage].map .ok := by
  have first := Session.encrypt_active tagCipher.toAes256Gcm tagSurroundings
    (rfl : startingSession.state = .active) [1]
  rw [if_neg (by decide)] at first
  have active : (startingSession.encrypt tagCipher.toAes256Gcm tagSurroundings [1]).2.state =
      .active := by
    rw [(Session.encrypt_ok first).2.2]
    rfl
  have second := Session.encrypt_active tagCipher.toAes256Gcm tagSurroundings active [2]
  rw [if_neg (by decide)] at second
  simp only [twoPlaintexts, Session.encryptAll, first, second]
  rfl

def twoMessages : Exchange where
  cipher := tagCipher
  correct := tagCipher_correct
  chainKey := List.replicate 32 0
  sender := startingSession
  senderStarts := startingSession_starts
  receiver := startingSession
  receiverStarts := startingSession_starts
  outgoing := twoPlaintexts
  messages := [firstMessage, secondMessage]
  sent := twoPlaintexts_sent

def reversedArrivals : List (Int × EncryptedMessage × Bytes) :=
  [(0, secondMessage, [2]), (0, firstMessage, [1])]

theorem out_of_order_delivery_reversed :
    let received := twoMessages.receiver.decryptAll twoMessages.cipher
      (reversedArrivals.map fun arrival => (arrival.1, arrival.2.1))
    received.1 = reversedArrivals.map (fun arrival => .ok arrival.2.2) ∧
      received.2.skippedKeys = ∅ ∧
      received.2.keyState.chainKey = twoMessages.sentAll.keyState.chainKey :=
  out_of_order_delivery twoMessages rfl reversedArrivals (List.Perm.swap _ _ _)

/-- The receiver still has a key from before its last ratchet step, which has set the counters to
zero and has put no key away. -/
def staleMessages : Exchange :=
  {twoMessages with
    receiver := {startingSession with
      skippedKeys := (∅ : Table UInt64 Bytes).insert 0 (deriveMessageKey (List.replicate 32 1) 0)}
    receiverStarts := ⟨rfl, rfl, rfl, rfl⟩}

/-- The old key is tried on the first message. -/
theorem stale_key_loses_message : ¬ ∀ (exchange : Exchange)
    (arrivals : List (Int × EncryptedMessage × Bytes)),
      (arrivals.map Prod.snd).Perm exchange.pairs →
        (exchange.receiver.decryptAll exchange.cipher
          (arrivals.map fun arrival => (arrival.1, arrival.2.1))).1 =
            arrivals.map (fun arrival => .ok arrival.2.2) := by
  intro delivered
  have results := delivered staleMessages [(0, firstMessage, [1]), (0, secondMessage, [2])]
    (List.Perm.refl _)
  have lost : (staleMessages.receiver.decrypt staleMessages.cipher 0 firstMessage).1 ≠ .ok [1] := by
    decide +kernel
  simp only [map_cons, ReceivingSession.decryptAll] at results
  exact lost (List.cons.inj results).1

end A3Net.Security
