import A3Net.Construction.ChatCrypto.SenderKeys
import A3Net.Machine.Run

namespace A3Net.ChatCrypto

open Cryptography Machine List SenderKeyChain

/-- An expansion to one block never fails. -/
def derivedSecret (kdf : Kdf) (info : Bytes) (chainKey : SecretBytes) : SecretBytes where
  bytes := (Hkdf.blocks kdf.hmac (Hkdf.extract kdf.hmac none chainKey.bytes) info 1 1 []).take 32
  size := by
    rw [length_take, Hkdf.blocks_length]
    rfl

/-- The chain key moves on once for each message. -/
def chainAt (kdf : Kdf) (secret : SecretBytes) : Nat → SecretBytes
  | 0 => secret
  | count + 1 => derivedSecret kdf nextChainInfo (chainAt kdf secret count)

def messageKeyAt (kdf : Kdf) (secret : SecretBytes) (count : Nat) : SecretBytes :=
  derivedSecret kdf messageKeyInfo (chainAt kdf secret count)

/-- Neither label maps two keys of one chain to one output, and the first key is no output. -/
structure CollisionFree (kdf : Kdf) (secret : SecretBytes) : Prop where
  messages : ∀ first second, first < 100000 → second < 100000 →
    messageKeyAt kdf secret first = messageKeyAt kdf secret second →
    chainAt kdf secret first = chainAt kdf secret second
  chains : ∀ first second, first < 100000 → second < 100000 →
    chainAt kdf secret (first + 1) = chainAt kdf secret (second + 1) →
    chainAt kdf secret first = chainAt kdf secret second
  start : ∀ count < 100000, chainAt kdf secret (count + 1) ≠ secret

variable {second first : Nat}

namespace CollisionFree

variable {kdf : Kdf} {secret : SecretBytes}

section

variable (free : CollisionFree kdf secret) (before : first < second) (within : second < 100000)
include free before within

/-- Equal chain keys would lead back to the first one. -/
theorem chainAt_ne : chainAt kdf secret first ≠ chainAt kdf secret second := by
  induction first generalizing second with
  | zero =>
    obtain ⟨second, rfl⟩ := Nat.exists_eq_succ_of_ne_zero (Nat.ne_of_gt before)
    exact (free.start second (by omega)).symm
  | succ first ih =>
    have positive := Nat.ne_of_gt (Nat.zero_lt_of_lt before)
    obtain ⟨second, rfl⟩ := Nat.exists_eq_succ_of_ne_zero positive
    intro same
    have earlier := free.chains first second (by omega) (by omega) same
    exact ih (Nat.lt_of_succ_lt_succ before) (by omega) earlier

theorem messageKeyAt_ne : messageKeyAt kdf secret first ≠ messageKeyAt kdf secret second := by
  intro same
  exact free.chainAt_ne before within (free.messages first second (before.trans within) within same)

end

end CollisionFree

/-- A nonce has twelve bytes. -/
structure Nonce where
  bytes : Bytes
  size : bytes.length = 12

/-- Opening undoes sealing, and the tag has sixteen bytes. -/
structure ChaCha20Poly1305.Correct (cipher : ChaCha20Poly1305) : Prop where
  opens : ∀ key nonce ad plaintext,
    cipher.decrypt key nonce ad (cipher.encrypt key nonce ad plaintext) = some plaintext
  tagged : ∀ key nonce ad plaintext, 16 ≤ (cipher.encrypt key nonce ad plaintext).length

/-- The provider keeps the secret of a chain, and the key derivation does not collide on it. -/
structure Setting where
  kdf : Kdf
  cipher : ChaCha20Poly1305
  correct : cipher.Correct
  provider : KeyProvider
  owner : String
  conversation : String
  chainId : SenderKeyId
  secret : SecretBytes
  kept : provider.derive (labelFor owner conversation chainId) = .ok secret
  free : CollisionFree kdf secret

inductive HistoryEvent where
  | sealMessage (nonce : Nonce) (ad plaintext : Bytes)
  | restart

/-- A message was sealed under a key, perhaps as the first one after a restart, and the receiver
opened it or not. -/
structure SealedMessage where
  key : SecretBytes
  afterRestart : Bool
  opened : Bool

/-- The receiver takes the messages in the order in which they are sealed. -/
structure History where
  sender : SenderKeyChain
  receiver : SenderKeyChain
  sealedMessages : List SealedMessage
  restarted : Bool

namespace History

variable (setting : Setting)

/-- Both sides start with the chain of the provider's secret. -/
def start : History :=
  let chain := SenderKeyChain.new (.fromBytes setting.chainId setting.secret)
  ⟨chain, chain, [], false⟩

def step (history : History) : HistoryEvent → History
  | .sealMessage nonce ad plaintext =>
    match history.sender.sealNext setting.kdf setting.cipher nonce.bytes ad plaintext,
      history.sender.keys setting.kdf with
    | (.ok (iteration, blob), sender), .ok (key, _) =>
      let (result, receiver) :=
        history.receiver.openNext setting.kdf setting.cipher ad blob iteration
      let opened := match result with
        | .ok output => decide (output = plaintext)
        | .error _ => false
      ⟨sender, receiver, history.sealedMessages ++ [⟨key, history.restarted, opened⟩], false⟩
    | (_, sender), _ => {history with sender := sender}
  | .restart =>
    match load setting.provider setting.owner setting.conversation setting.chainId with
    | .ok chain => {history with sender := chain, restarted := true}
    | .error _ => history

/-- No message key is used twice, and whoever opened all messages before a restart opens the first
one after it. -/
structure Sound (history : History) : Prop where
  distinct : (history.sealedMessages.map SealedMessage.key).Nodup
  resumes : ∀ before msg after, history.sealedMessages = before ++ msg :: after →
    msg.afterRestart → (∀ earlier ∈ before, earlier.opened) → msg.opened

/-- A message that can be sealed is sealed where the messages before it have moved the chain. -/
def InPlace (history : History) : HistoryEvent → Prop
  | .sealMessage _ _ plaintext =>
    history.sender.iteration < 100000 → plaintext.length ≤ setting.cipher.limit →
      history.sender.iteration.toNat = history.sealedMessages.length
  | .restart => True

end History

variable {nonce : Nonce}

namespace SenderKeyChain

variable (kdf : Kdf) {cipher : ChaCha20Poly1305}

theorem keys_eq (chain : SenderKeyChain) :
    chain.keys kdf = .ok (derivedSecret kdf messageKeyInfo chain.chainKey,
      derivedSecret kdf nextChainInfo chain.chainKey) := by
  rfl

/-- The number, the nonce and the ciphertext of a message stand in one text. -/
def sealedBlob (cipher : ChaCha20Poly1305) (chain : SenderKeyChain) (nonce : Nonce)
    (ad plaintext : Bytes) : Bytes :=
  littleEndian 4 chain.iteration.toNat ++ nonce.bytes ++
    cipher.encrypt (derivedSecret kdf messageKeyInfo chain.chainKey).bytes nonce.bytes ad plaintext

variable {chain : SenderKeyChain} {plaintext : Bytes}

theorem sealNext_ok (within : chain.iteration < 100000) (short : plaintext.length ≤ cipher.limit)
    (nonce : Nonce) (ad : Bytes) :
    chain.sealNext kdf cipher nonce.bytes ad plaintext =
      (.ok (chain.iteration, chain.sealedBlob kdf cipher nonce ad plaintext),
        chain.advance (derivedSecret kdf nextChainInfo chain.chainKey)) := by
  rw [sealNext, if_neg (UInt32.not_le.mpr within), keys_eq]
  dsimp only
  rw [if_neg (Nat.not_lt.mpr short)]
  rfl

theorem sealNext_refused (refused : ¬ (chain.iteration < 100000 ∧ plaintext.length ≤ cipher.limit))
    (ad : Bytes) :
    ∃ error, chain.sealNext kdf cipher nonce.bytes ad plaintext = (.error error, chain) := by
  unfold sealNext
  split
  · exact ⟨_, rfl⟩
  · next within =>
    rw [keys_eq]
    dsimp only
    rw [if_pos]
    · exact ⟨_, rfl⟩
    · by_contra short
      exact refused ⟨UInt32.not_le.mp within, Nat.not_lt.mp short⟩

/-- A receiver at the same place opens what the sender sealed. -/
theorem openNext_sealedBlob (correct : cipher.Correct) {sender receiver : SenderKeyChain}
    (sameKey : receiver.chainKey = sender.chainKey)
    (samePlace : receiver.iteration = sender.iteration) (nonce : Nonce) (ad plaintext : Bytes) :
    receiver.openNext kdf cipher ad (sender.sealedBlob kdf cipher nonce ad plaintext)
        sender.iteration =
      (.ok plaintext, receiver.advance (derivedSecret kdf nextChainInfo receiver.chainKey)) := by
  have number : (littleEndian 4 sender.iteration.toNat).length = 4 := littleEndian_length _ _
  have tagged := correct.tagged (derivedSecret kdf messageKeyInfo sender.chainKey).bytes nonce.bytes
    ad plaintext
  have long : ¬ (sender.sealedBlob kdf cipher nonce ad plaintext).length < 4 + 12 + 16 := by
    rw [sealedBlob, length_append, length_append, number, nonce.size]
    omega
  have middle : ((sender.sealedBlob kdf cipher nonce ad plaintext).drop 4).take 12 =
      nonce.bytes := by
    rw [sealedBlob, append_assoc, drop_left' number, take_left' nonce.size]
  have rest : (sender.sealedBlob kdf cipher nonce ad plaintext).drop 16 =
      cipher.encrypt (derivedSecret kdf messageKeyInfo sender.chainKey).bytes nonce.bytes ad
        plaintext := by
    rw [sealedBlob, drop_left']
    rw [length_append, number, nonce.size]
  rw [openNext, if_neg long, if_neg (not_not.mpr samePlace.symm), keys_eq]
  dsimp only
  rw [middle, rest, sameKey, correct.opens]

end SenderKeyChain

namespace History

variable {setting : Setting} {history : History}

/-- The sealed messages are those of the first places of the chain, and the receiver has opened all
of them. -/
structure Follows (setting : Setting) (history : History) : Prop where
  position : history.sender.chainKey =
    chainAt setting.kdf setting.secret history.sender.iteration.toNat
  place : history.sender.iteration.toNat ≤ history.sealedMessages.length
  few : history.sealedMessages.length ≤ 100000
  receiverKey : history.receiver.chainKey =
    chainAt setting.kdf setting.secret history.sealedMessages.length
  receiverPlace : history.receiver.iteration.toNat = history.sealedMessages.length
  keys : history.sealedMessages.map SealedMessage.key =
    (List.range history.sealedMessages.length).map (messageKeyAt setting.kdf setting.secret)
  opened : ∀ msg ∈ history.sealedMessages, msg.opened

theorem start_follows : Follows setting (start setting) where
  position := rfl
  place := le_rfl
  few := Nat.zero_le _
  receiverKey := rfl
  receiverPlace := rfl
  keys := rfl
  opened := by simp [start]

theorem Follows.sound (follows : Follows setting history) : history.Sound where
  distinct := by
    rw [follows.keys]
    apply List.Nodup.map_on _ nodup_range
    intro first firstMember second secondMember same
    have firstWithin := (mem_range.mp firstMember).trans_le follows.few
    have secondWithin := (mem_range.mp secondMember).trans_le follows.few
    rcases Nat.lt_trichotomy first second with before | equal | after
    · exact absurd same (setting.free.messageKeyAt_ne before secondWithin)
    · exact equal
    · exact absurd same.symm (setting.free.messageKeyAt_ne after firstWithin)
  resumes before msg after split _ _ := by
    apply follows.opened
    rw [split]
    simp

variable {plaintext : Bytes} {ad : Bytes}

theorem step_refused (refused : ¬ (history.sender.iteration < 100000 ∧
      plaintext.length ≤ setting.cipher.limit)) :
    history.step setting (.sealMessage nonce ad plaintext) = history := by
  obtain ⟨error, unsealed⟩ := sealNext_refused setting.kdf refused ad
  rw [step, unsealed]

section

variable (follows : Follows setting history)
include follows

section

variable (short : plaintext.length ≤ setting.cipher.limit)
include short

/-- A sealed message is recorded with the key of its place. -/
theorem step_sealed (within : history.sender.iteration < 100000) (nonce : Nonce) (ad : Bytes) :
    (history.step setting (.sealMessage nonce ad plaintext)).sealedMessages.map
        SealedMessage.key =
      history.sealedMessages.map SealedMessage.key ++
        [messageKeyAt setting.kdf setting.secret history.sender.iteration.toNat] := by
  rw [step, sealNext_ok setting.kdf within short, keys_eq]
  rw [map_append, messageKeyAt, ← follows.position]
  rfl

/-- A message that is sealed in its place is opened. -/
theorem step_inPlace (within : history.sender.iteration < 100000)
    (inPlace : history.sender.iteration.toNat = history.sealedMessages.length) (ad : Bytes) :
    history.step setting (.sealMessage nonce ad plaintext) =
      ⟨history.sender.advance (derivedSecret setting.kdf nextChainInfo history.sender.chainKey),
        history.receiver.advance
          (derivedSecret setting.kdf nextChainInfo history.receiver.chainKey),
        history.sealedMessages ++ [⟨messageKeyAt setting.kdf setting.secret
          history.sealedMessages.length, history.restarted, true⟩], false⟩ := by
  have sameKey : history.receiver.chainKey = history.sender.chainKey := by
    rw [follows.receiverKey, follows.position, inPlace]
  have samePlace : history.receiver.iteration = history.sender.iteration :=
    UInt32.toNat_inj.mp (follows.receiverPlace.trans inPlace.symm)
  rw [step, sealNext_ok setting.kdf within short, keys_eq]
  dsimp only
  rw [openNext_sealedBlob setting.kdf setting.correct sameKey samePlace]
  dsimp only
  rw [messageKeyAt, ← inPlace, ← follows.position, decide_eq_true rfl]

omit short in
omit follows in
theorem advance_toNat {chain : SenderKeyChain} (within : chain.iteration.toNat < 100000)
    (nextChain : SecretBytes) :
    (chain.advance nextChain).iteration.toNat = chain.iteration.toNat + 1 := by
  show (chain.iteration + 1).toNat = _
  rw [UInt32.toNat_add, UInt32.toNat_one]
  omega

theorem step_inPlace_follows (within : history.sender.iteration < 100000)
    (inPlace : history.sender.iteration.toNat = history.sealedMessages.length) :
    Follows setting (history.step setting (.sealMessage nonce ad plaintext)) := by
  rw [step_inPlace follows short within inPlace ad]
  have below : history.sender.iteration.toNat < 100000 := UInt32.lt_iff_toNat_lt.mp within
  have receiverBelow : history.receiver.iteration.toNat < 100000 := by
    rw [follows.receiverPlace, ← inPlace]
    exact below
  refine ⟨?_, ?_, ?_, ?_, ?_, ?_, ?_⟩
  · rw [advance_toNat below]
    show derivedSecret setting.kdf nextChainInfo history.sender.chainKey = _
    rw [follows.position]
    rfl
  · rw [advance_toNat below, length_append, inPlace]
    exact le_rfl
  · rw [length_append, ← inPlace]
    exact below
  · rw [length_append]
    show derivedSecret setting.kdf nextChainInfo history.receiver.chainKey = _
    rw [follows.receiverKey]
    rfl
  · rw [advance_toNat receiverBelow, length_append, follows.receiverPlace]
    rfl
  · rw [map_append, length_append, length_singleton, range_succ, map_append, follows.keys]
    rfl
  · exact forall_mem_append.mpr ⟨follows.opened, forall_mem_singleton.mpr rfl⟩

omit short in
theorem step_restart_follows : Follows setting (history.step setting .restart) := by
  rw [step, load, setting.kept]
  exact ⟨rfl, Nat.zero_le _, follows.few, follows.receiverKey, follows.receiverPlace, follows.keys,
    follows.opened⟩

/-- A message that is sealed at an earlier place has the key of that place. -/
theorem step_repeats (within : history.sender.iteration < 100000)
    (elsewhere : history.sender.iteration.toNat ≠ history.sealedMessages.length) (ad : Bytes) :
    ¬ (history.step setting (.sealMessage nonce ad plaintext)).Sound := by
  intro sound
  have distinct := sound.distinct
  rw [step_sealed follows short within, ← concat_eq_append, nodup_concat] at distinct
  apply distinct.1
  rw [follows.keys]
  exact mem_map_of_mem (mem_range.mpr (Nat.lt_of_le_of_ne follows.place elsewhere))

end

end

theorem step_sound_iff (history : History) (event : HistoryEvent)
    (follows : Follows setting history) :
    (history.step setting event).Sound ↔ history.InPlace setting event := by
  cases event with
  | restart => exact iff_of_true (step_restart_follows follows).sound trivial
  | sealMessage nonce ad plaintext =>
    by_cases possible : history.sender.iteration < 100000 ∧ plaintext.length ≤ setting.cipher.limit
    · obtain ⟨within, short⟩ := possible
      constructor
      · intro sound _ _
        by_contra elsewhere
        exact step_repeats follows short within elsewhere ad sound
      · intro inPlace
        exact (step_inPlace_follows follows short within (inPlace within short)).sound
    · rw [step_refused possible]
      exact iff_of_true follows.sound fun within short => absurd ⟨within, short⟩ possible

theorem step_follows (history : History) {event : HistoryEvent} (follows : Follows setting history)
    (inPlace : history.InPlace setting event) : Follows setting (history.step setting event) := by
  cases event with
  | restart => exact step_restart_follows follows
  | sealMessage nonce ad plaintext =>
    by_cases possible : history.sender.iteration < 100000 ∧ plaintext.length ≤ setting.cipher.limit
    · obtain ⟨within, short⟩ := possible
      exact step_inPlace_follows follows short within (inPlace within short)
    · rw [step_refused possible]
      exact follows

/-- A history reuses no message key exactly when no message is sealed after a restart that put the
chain back behind earlier messages. -/
theorem history_sound_iff (setting : Setting) (events : List HistoryEvent) :
    Always (step setting) Sound (start setting) events ↔
      Guarded (step setting) (InPlace setting) (start setting) events := by
  apply always_iff_guarded_of (step setting) (Follows setting)
  · exact fun history event follows _ _ => step_sound_iff history event follows
  · exact fun history event follows _ _ inPlace => step_follows history follows inPlace
  · exact start_follows
  · exact start_follows.sound
  · exact guarded_true (step setting) (start setting) events

end History

/-- This keyed hash of the samples counts the chain keys. -/
def countingHmac : Hmac where
  run key msg :=
    if key = List.replicate 32 0 then (msg ++ List.replicate 32 0).take 32
    else if msg = nextChainInfo ++ [1] then littleEndian 32 (ofLittleEndian key + 1)
    else (key ++ List.replicate 32 0).take 32
  size key msg := by
    split
    · simp
    · split
      · exact littleEndian_length 32 _
      · simp

def countingKdf : Kdf := ⟨countingHmac, "invalid length"⟩

def countingSecret (count : Nat) : SecretBytes :=
  ⟨littleEndian 32 count, littleEndian_length 32 count⟩

theorem countingSecret_extract (count : Nat) :
    Hkdf.extract countingHmac none (countingSecret count).bytes = (countingSecret count).bytes := by
  show (_ ++ List.replicate 32 0).take 32 = _
  exact take_left' (countingSecret count).size

/-- One block of the expansion is one run of the keyed hash. -/
theorem derivedSecret_bytes (kdf : Kdf) (info : Bytes) (chainKey : SecretBytes) :
    (derivedSecret kdf info chainKey).bytes =
      kdf.hmac.run (Hkdf.extract kdf.hmac none chainKey.bytes) (info ++ [1]) := by
  show (kdf.hmac.run _ ([] ++ info ++ [1]) ++ []).take 32 = _
  rw [append_nil, nil_append, take_of_length_le (kdf.hmac.size _ _).le]

section Counting

variable {count : Nat} (fits : count < 256 ^ 32) (positive : 0 < count)

include fits positive

theorem countingSecret_nonzero : (countingSecret count).bytes ≠ List.replicate 32 0 := by
  intro zeros
  have value := ofLittleEndian_littleEndian 32 fits
  rw [show littleEndian 32 count = List.replicate 32 0 from zeros] at value
  have zero : ofLittleEndian (List.replicate 32 0) = 0 := by decide
  omega

theorem countingSecret_next :
    derivedSecret countingKdf nextChainInfo (countingSecret count) =
      countingSecret (count + 1) := by
  rw [SecretBytes.mk.injEq, derivedSecret_bytes]
  show countingHmac.run (Hkdf.extract countingHmac none _) _ = littleEndian 32 (count + 1)
  rw [countingSecret_extract]
  show (if _ = List.replicate 32 0 then _ else if _ = nextChainInfo ++ [1] then _ else _) = _
  rw [if_neg (countingSecret_nonzero fits positive), if_pos rfl]
  show littleEndian 32 (ofLittleEndian (littleEndian 32 count) + 1) = _
  rw [ofLittleEndian_littleEndian 32 fits]

theorem countingSecret_message :
    derivedSecret countingKdf messageKeyInfo (countingSecret count) = countingSecret count := by
  have other : messageKeyInfo ++ [1] ≠ nextChainInfo ++ [1] := by decide
  rw [SecretBytes.mk.injEq, derivedSecret_bytes]
  show countingHmac.run (Hkdf.extract countingHmac none _) _ = (countingSecret count).bytes
  rw [countingSecret_extract]
  show (if _ = List.replicate 32 0 then _ else if _ = nextChainInfo ++ [1] then _ else _) = _
  rw [if_neg (countingSecret_nonzero fits positive), if_neg other]
  exact take_left' (countingSecret count).size

end Counting

theorem chainAt_counting {count : Nat} (within : count ≤ 100000) :
    chainAt countingKdf (countingSecret 1) count = countingSecret (count + 1) := by
  induction count with
  | zero => rfl
  | succ count ih =>
    rw [chainAt, ih (by omega)]
    exact countingSecret_next (lt_of_le_of_lt within (by decide)) (Nat.succ_pos count)

theorem countingSecret_injective (firstWithin : first ≤ 100001) (secondWithin : second ≤ 100001)
    (same : countingSecret first = countingSecret second) : first = second := by
  have bytes := congrArg (ofLittleEndian ∘ SecretBytes.bytes) same
  have large : 100001 < 256 ^ 32 := by decide
  exact (ofLittleEndian_littleEndian 32 (firstWithin.trans_lt large)).symm.trans
    (bytes.trans (ofLittleEndian_littleEndian 32 (secondWithin.trans_lt large)))

theorem counting_collisionFree : CollisionFree countingKdf (countingSecret 1) where
  messages first second firstWithin secondWithin same := by
    rw [messageKeyAt, messageKeyAt, chainAt_counting firstWithin.le,
      chainAt_counting secondWithin.le, countingSecret_message (by omega) (Nat.succ_pos first),
      countingSecret_message (by omega) (Nat.succ_pos second)] at same
    rw [chainAt_counting firstWithin.le, chainAt_counting secondWithin.le, same]
  chains first second firstWithin secondWithin same := by
    rw [chainAt_counting firstWithin, chainAt_counting secondWithin] at same
    have counts := countingSecret_injective (by omega) (by omega) same
    have equal : first = second := by omega
    rw [equal]
  start count within same := by
    rw [chainAt_counting within] at same
    have equal := countingSecret_injective (by omega) (by omega) same
    omega

/-- This cipher of the samples puts sixteen bytes before the plaintext. -/
def openCipher : ChaCha20Poly1305 where
  encrypt _ _ _ plaintext := List.replicate 16 0 ++ plaintext
  decrypt _ _ _ sealed := some (sealed.drop 16)
  limit := 1000

def countingSetting : Setting where
  kdf := countingKdf
  cipher := openCipher
  correct := by
    constructor
    · intro key nonce ad plaintext
      rfl
    · intro key nonce ad plaintext
      simp [openCipher]
  provider := ⟨fun _ => .ok (countingSecret 1)⟩
  owner := "owner"
  conversation := "grp:room"
  chainId := ⟨List.replicate 16 0, rfl⟩
  secret := countingSecret 1
  kept := rfl
  free := counting_collisionFree

/-- One message is sealed before a restart and one after it. -/
def restartBetween : List HistoryEvent :=
  let nonce : Nonce := ⟨List.replicate 12 0, rfl⟩
  [.sealMessage nonce [] [1], .restart, .sealMessage nonce [] [2]]

theorem history_not_sound :
    ¬ ∀ (setting : Setting) (events : List HistoryEvent),
      Always (History.step setting) History.Sound (History.start setting) events := by
  intro always
  have final := (always countingSetting restartBetween).final.distinct
  revert final
  decide +kernel

end A3Net.ChatCrypto
