import A3Net.Proof.Blobstore.BitswapIntegrity

namespace A3Net.Bitswap

open Machine BitswapEngine List UInt64

/-- This message asks for the block. -/
def Asks (block : ContentHash) : BitswapMessage → Prop
  | .wantHave asked _ _ | .wantBlock asked _ => asked = block
  | _ => False

/-- This answer promises or carries the block. -/
def Gives (block : ContentHash) : BitswapMessage → Prop
  | .haveBlock given _ | .block given _ => given = block
  | _ => False

/-- The engine gives the block to nobody and still asks for it. -/
def Unheld (block : ContentHash) (engine : BitswapEngine) : Prop :=
  (∀ now peerId msg, ∀ answer ∈ (engine.processMessage now peerId msg).2, ¬ Gives block answer) ∧
  ∀ now sessionId blocks priority, block ∈ blocks →
    ∃ msg ∈ (engine.requestBlocks now sessionId blocks priority).2, Asks block msg

/-- Neither the received data nor the store behind the engine has the block. -/
def Missing (block : ContentHash) (engine : BitswapEngine) : Prop :=
  engine.getBlock block = none ∧ engine.blockProvider block = none

/-- The stock decides whether a block is missing. -/
theorem missing_congr {first second : BitswapEngine} (same : first.stock = second.stock) :
    Missing block first ↔ Missing block second := by
  have data : first.wants.blockData = second.wants.blockData := congrArg (·.2.1) same
  have source : first.blockProvider = second.blockProvider := congrArg (·.2.2) same
  rw [Missing, Missing, getBlock, getBlock, WantManager.getBlockData, WantManager.getBlockData,
    data, source]

variable {engine : BitswapEngine} {block : ContentHash}

section

variable (missing : Missing block engine) (absent : block ∉ engine.wants.localBlocks) (now : Nat)
include missing absent

theorem processMessage_silent (peerId : PeerId) (msg answer : BitswapMessage)
    (member : answer ∈ (engine.processMessage now peerId msg).2) : ¬ Gives block answer := by
  unfold processMessage at member
  split at member
  · cases msg with
    | wantHave asked priority sendDontHave =>
      simp only [handleMessage, handleWantHave] at member
      split at member
      · next held =>
        cases mem_singleton.mp member
        rintro rfl
        exact absent (of_decide_eq_true held)
      · cases member
    | wantBlock asked priority =>
      simp only [handleMessage, handleWantBlock_eq, serveBlock] at member
      split at member
      · cases member
      · next data served =>
        cases mem_singleton.mp member
        rintro rfl
        cases missing.2.symm.trans served
    | _ => cases member
  · cases member

theorem requestBlock_asks {priority : Int} :
    ∃ msg ∈ (engine.requestBlock now priority block).2, Asks block msg := by
  have unread : engine.wants.getBlockData block = none := missing.1
  unfold requestBlock
  rw [if_neg (by simp [WantManager.hasLocal, absent, unread])]
  dsimp only
  split
  · exact ⟨_, mem_singleton_self _, rfl⟩
  · next known =>
    obtain ⟨peer, member⟩ := exists_mem_of_ne_nil _ fun empty => known (isEmpty_iff.mpr empty)
    exact ⟨_, mem_map_of_mem member, rfl⟩

/-- The loop asks for the block when its turn comes. -/
theorem requestBlocks_asks {priority : Int} {blocks : List ContentHash}
    (sent : List BitswapMessage) (due : (∃ msg ∈ sent, Asks block msg) ∨ block ∈ blocks) :
    ∃ msg ∈ (blocks.foldl (fun state block =>
      let asked := state.1.requestBlock now priority block
      (asked.1, state.2 ++ asked.2)) (engine, sent)).2, Asks block msg := by
  induction blocks generalizing engine sent with
  | nil => exact due.resolve_right not_mem_nil
  | cons first rest ih =>
    have kept := requestBlock_stock engine now priority first
    rw [foldl_cons]
    refine ih ?_ ?_ _ ?_
    · exact (missing_congr kept).mpr missing
    · rw [show (engine.requestBlock now priority first).1.wants.localBlocks = _ from
        congrArg Prod.fst kept]
      exact absent
    · rcases due with ⟨msg, member, asks⟩ | named
      · exact .inl ⟨msg, mem_append_left _ member, asks⟩
      · rcases mem_cons.mp named with rfl | later
        · obtain ⟨msg, member, asks⟩ := requestBlock_asks missing absent now
          exact .inl ⟨msg, mem_append_right _ member, asks⟩
        · exact .inr later

end

theorem unheld_iff (missing : Missing block engine) :
    Unheld block engine ↔ block ∉ engine.wants.localBlocks := by
  constructor
  · rintro ⟨_, asks⟩ held
    obtain ⟨msg, member, _⟩ := asks 0 0 [block] 0 (mem_singleton_self block)
    simp [requestBlocks, requestBlock, WantManager.hasLocal, held] at member
  · intro absent
    refine ⟨processMessage_silent missing absent, fun now _ blocks priority named => ?_⟩
    exact requestBlocks_asks missing absent now [] (.inr named)

/-- This call brings the data of the block. -/
def Delivers (block : ContentHash) : Call → Prop
  | .processMessage _ _ (.block hash _) => hash = block
  | _ => False

theorem Missing.call (missing : Missing block engine) {call : Call}
    (other : ¬ Delivers block call) : Missing block (engine.call call) := by
  have stock := call_stock engine call
  have source : (engine.call call).blockProvider = engine.blockProvider := congrArg (·.2.2) stock
  have data : (engine.call call).wants.blockData = _ := congrArg (·.2.1) stock
  refine ⟨?_, source ▸ missing.2⟩
  rw [getBlock, WantManager.getBlockData, data]
  split
  · next hash bytes stored =>
    obtain ⟨now, peerId, rfl, _⟩ := storedBy_eq_some stored
    rw [Table.lookup_insert_eq, if_neg fun same => other same.symm]
    exact missing.1
  · exact missing.1

theorem call_held (call : Call) :
    block ∈ (engine.call call).wants.localBlocks ↔
      block ∈ engine.wants.localBlocks ∨ block ∈ heldBy call := by
  rw [show (engine.call call).wants.localBlocks = _ from congrArg Prod.fst (call_stock engine call)]
  generalize engine.wants.localBlocks = held
  induction heldBy call generalizing held with
  | nil => simp
  | cons first rest ih =>
    rw [foldl_cons, ih, Finset.mem_insert, mem_cons, or_assoc, or_left_comm]

/-- A block that is never received is neither promised nor sent and is asked for again, exactly
when no call counts it among the engine's own blocks, as `create_wants` does. -/
theorem wants_not_haves_iff (engine : BitswapEngine) (block : ContentHash) (calls : List Call)
    (missing : Missing block engine) (absent : block ∉ engine.wants.localBlocks)
    (never : ∀ call ∈ calls, ¬ Delivers block call) :
    Always BitswapEngine.call (Unheld block) engine calls ↔
      ∀ call ∈ calls, block ∉ heldBy call := by
  induction calls generalizing engine with
  | nil => simpa [always_nil, unheld_iff missing] using absent
  | cons call rest ih =>
    have next := missing.call (never call mem_cons_self)
    have later := (forall_mem_cons.mp never).2
    have held := @call_held engine block call
    rw [always_cons, unheld_iff missing, forall_mem_cons, and_iff_right absent]
    constructor
    · intro always
      have unheld := (unheld_iff next).mp (always [] nil_prefix)
      exact ⟨fun named => unheld (held.mpr (.inr named)), (ih _ next unheld later).mp always⟩
    · rintro ⟨unnamed, others⟩
      have unheld := fun member => (held.mp member).elim absent unnamed
      exact (ih _ next unheld later).mpr others

theorem wants_not_haves_iff_request :
    Always BitswapEngine.call (Unheld sampleHash) {} [.requestBlocks 0 0 [sampleHash] 1] :=
  (wants_not_haves_iff {} sampleHash [.requestBlocks 0 0 [sampleHash] 1] ⟨rfl, rfl⟩
    (Finset.notMem_empty _) (by simp [Delivers])).mpr (by simp [heldBy])

/-- A block that is only wanted is taken for a held one. -/
theorem wanted_block_held :
    ¬ ∀ (engine : BitswapEngine) (block : ContentHash) (calls : List Call), Missing block engine →
      block ∉ engine.wants.localBlocks →
      (∀ call ∈ calls, ¬ Delivers block call ∧ call ≠ .addLocalBlock block) →
      Always BitswapEngine.call (Unheld block) engine calls := by
  intro claim
  have start : Missing sampleHash {} := ⟨rfl, rfl⟩
  have always := claim {} sampleHash [.createWants 0 1 [sampleHash] 0] start (Finset.notMem_empty _)
    (by simp [Delivers])
  have next : Missing sampleHash (BitswapEngine.call {} (.createWants 0 1 [sampleHash] 0)) :=
    start.call not_false
  exact (unheld_iff next).mp always.final ((call_held _).mpr (.inr mem_cons_self))

/-- These are the bytes that messages carry. -/
def carried (messages : List BitswapMessage) : Nat :=
  (messages.map fun msg => match msg with
    | .block _ data => data.length
    | _ => 0).sum

/-- A message comes at an instant from a peer. -/
abbrev Arrival := Nat × PeerId × BitswapMessage

variable (engine : BitswapEngine)

def BitswapEngine.receive (arrival : Arrival) : BitswapEngine :=
  (engine.processMessage arrival.1 arrival.2.1 arrival.2.2).1

def BitswapEngine.answers (arrival : Arrival) : List BitswapMessage :=
  (engine.processMessage arrival.1 arrival.2.1 arrival.2.2).2

/-- These bytes go to the peer in answers. -/
def sentTo (peerId : PeerId) : BitswapEngine → List Arrival → Nat
  | _, [] => 0
  | engine, arrival :: rest =>
    (if arrival.2.1 = peerId then carried (engine.answers arrival) else 0) +
      sentTo peerId (engine.receive arrival) rest

/-- These bytes come from the peer. -/
def receivedFrom (peerId : PeerId) : List Arrival → Nat
  | [] => 0
  | arrival :: rest =>
    (if arrival.2.1 = peerId then carried [arrival.2.2] else 0) + receivedFrom peerId rest

/-- The bytes that the ledger has as sent and as received. -/
def account (peers : Table PeerId PeerState) (peerId : PeerId) : Option (UInt64 × UInt64) :=
  (peers.lookup peerId).map fun peer => (peer.ledger.bytesSent, peer.ledger.bytesReceived)

def credit (bytes : Nat) (account : UInt64 × UInt64) : UInt64 × UInt64 :=
  (account.1, account.2 + ofNat bytes)

@[simp] theorem credit_zero : credit 0 = id := by
  funext account
  exact Prod.ext rfl (UInt64.add_zero _)

variable {peers : Table PeerId PeerState} {name : PeerId} {change : PeerState → PeerState}
variable {other : PeerId}

theorem account_modify {bytes : Nat} (changes : ∀ peer, (change peer).ledger =
      peer.ledger.recordBlockReceived.recordReceived (ofNat bytes)) :
    account (peers.modify name change) other =
      (account peers other).map (credit (if name = other then bytes else 0)) := by
  unfold account
  rw [Table.lookup_modify]
  rcases eq_or_ne other name with rfl | ne
  · rw [if_pos rfl, if_pos rfl, Option.map_map, Option.map_map]
    congr 1
    funext peer
    simp only [Function.comp_apply, changes]
    rfl
  · rw [if_neg ne, if_neg ne.symm, credit_zero, Option.map_id, id]

theorem account_keep (keeps : ∀ peer, (change peer).ledger = peer.ledger) :
    account (peers.modify name change) other = account peers other := by
  unfold account
  rw [Table.lookup_modify]
  split
  · simp only [Option.map_map, Function.comp_def, keeps]
  · rfl

theorem account_wanters (wanters : List PeerId) (block : ContentHash) :
    account (wanters.foldl (fun peers wanter => peers.modify wanter fun peer =>
      {peer with wantList := peer.wantList.addWantHave block}) peers) other =
        account peers other := by
  induction wanters generalizing peers with
  | nil => rfl
  | cons wanter rest ih => exact ih.trans (account_keep fun _ => rfl)

variable (engine : BitswapEngine)

/-- A served block is credited as if it had been received. -/
theorem account_handleMessage {now : Nat} {peerId : PeerId}
    {msg : BitswapMessage} :
    account (engine.handleMessage now peerId msg).1.peers other =
      (account engine.peers other).map (credit (if peerId = other then
        carried (engine.handleMessage now peerId msg).2 + carried [msg] else 0)) := by
  cases msg with
  | wantHave block priority sendDontHave =>
    rw [handleMessage]
    unfold handleWantHave
    split
    · simp [carried]
    · simp [carried, account_wanters]
  | wantBlock block priority =>
    rw [handleMessage, handleWantBlock_eq]
    unfold serveBlock
    split
    · simp [carried]
    · exact account_modify fun _ => rfl
  | block hash data =>
    rw [handleMessage, carried, carried, map_nil, sum_nil, Nat.zero_add]
    exact account_modify fun _ => rfl
  | haveBlock | dontHave =>
    refine (account_keep ?_).trans ?_
    · exact fun _ => rfl
    · simp [handleMessage, carried]
  | _ => simp [handleMessage, carried]

theorem account_receive (arrival : Arrival) :
    account (engine.receive arrival).peers other = (account engine.peers other).map
      (credit (if arrival.2.1 = other then carried (engine.answers arrival) + carried [arrival.2.2]
        else 0)) := by
  obtain ⟨now, peerId, msg⟩ := arrival
  unfold receive BitswapEngine.answers processMessage
  dsimp only
  split
  · rw [← @account_keep engine.peers peerId (·.recordMessage now) other fun _ => rfl]
    exact account_handleMessage _
  · next unknown =>
    rcases eq_or_ne peerId other with rfl | ne
    · have none : account engine.peers peerId = none := by
        rw [account, AList.lookup_eq_none.mpr unknown]
        rfl
      rw [none]
      exact none
    · simp [ne, countMessage]

theorem account_run (arrivals : List Arrival) :
    account (run receive engine arrivals).peers other =
      (account engine.peers other).map
        (credit (sentTo other engine arrivals + receivedFrom other arrivals)) := by
  induction arrivals generalizing engine with
  | nil => simp [sentTo, receivedFrom]
  | cons arrival rest ih =>
    rw [run_cons, ih, account_receive, Option.map_map]
    congr 1
    funext account
    simp only [Function.comp_apply, credit, sentTo, receivedFrom, UInt64.add_assoc,
      ← ofNat_add]
    split <;> congr 3 <;> omega

/-- The block provider has these bytes for the block that a message asks for. -/
def wantedBytes (provider : ContentHash → Option Bytes) : BitswapMessage → Nat
  | .wantBlock block _ => ((provider block).map length).getD 0
  | _ => 0

/-- These are the bytes of all blocks that the peer asks for. -/
def wantedBy (provider : ContentHash → Option Bytes) (peerId : PeerId) : List Arrival → Nat
  | [] => 0
  | arrival :: rest =>
    (if arrival.2.1 = peerId then wantedBytes provider arrival.2.2 else 0) +
      wantedBy provider peerId rest

theorem receive_blockProvider (arrival : Arrival) :
    (engine.receive arrival).blockProvider = engine.blockProvider :=
  congrArg (·.2.2) (call_stock engine (.processMessage arrival.1 arrival.2.1 arrival.2.2))

/-- Only a request for a block is answered with a block. -/
theorem carried_handleMessage (now : Nat) (peerId : PeerId) (msg : BitswapMessage) :
    carried (engine.handleMessage now peerId msg).2 = wantedBytes engine.blockProvider msg := by
  cases msg with
  | wantHave block priority sendDontHave =>
    rw [handleMessage]
    unfold handleWantHave
    split <;> rfl
  | wantBlock block priority =>
    rw [handleMessage, handleWantBlock_eq]
    unfold serveBlock
    split <;> rename_i served <;> simp [wantedBytes, served, carried]
  | _ => rfl

/-- A registered peer is sent the blocks that it asks for. -/
theorem sentTo_eq (arrivals : List Arrival) (known : (account engine.peers other).isSome) :
    sentTo other engine arrivals = wantedBy engine.blockProvider other arrivals := by
  induction arrivals generalizing engine with
  | nil => rfl
  | cons arrival rest ih =>
    have still : (account (engine.receive arrival).peers other).isSome := by
      rw [account_receive, Option.isSome_map]
      exact known
    rw [sentTo, wantedBy, ih _ still, receive_blockProvider, Nat.add_right_cancel_iff]
    split_ifs with same
    · rw [account, Option.isSome_map, AList.lookup_isSome, ← same] at known
      rw [BitswapEngine.answers, processMessage, if_pos known]
      exact carried_handleMessage ..
    · rfl

/-- From an empty account, the ledger has what was sent to a peer and received from it exactly when
the blocks that the peer asked for have no bytes. -/
theorem ledger_exact_iff (engine : BitswapEngine) (peerId : PeerId) (arrivals : List Arrival)
    (new : account engine.peers peerId = some (0, 0)) :
    account (run receive engine arrivals).peers peerId =
        some (ofNat (sentTo peerId engine arrivals), ofNat (receivedFrom peerId arrivals)) ↔
      ofNat (wantedBy engine.blockProvider peerId arrivals) = 0 := by
  rw [account_run, new, Option.map_some, Option.some.injEq, credit, Prod.mk.injEq, ofNat_add,
    UInt64.zero_add, add_eq_right, sentTo_eq engine arrivals (by rw [new]; rfl)]
  exact ⟨And.right, fun none => ⟨none.symm, none⟩⟩

/-- The peer asks for a block that the engine serves. -/
def servedEngine : BitswapEngine :=
  {(({} : BitswapEngine).addPeer 0 "alice").1 with blockProvider := fun _ => some [1, 2, 3]}

theorem ledger_exact_iff_have :
    account (run receive servedEngine [(1, "alice", .block sampleHash [7])]).peers "alice" =
      some (0, 1) :=
  (ledger_exact_iff servedEngine "alice" _ (by decide +kernel)).mpr (by decide +kernel)

/-- Three bytes are sent, and the ledger has them as received. -/
theorem served_block_received :
    ¬ ∀ (engine : BitswapEngine) (peerId : PeerId) (arrivals : List Arrival),
      account engine.peers peerId = some (0, 0) →
      account (run receive engine arrivals).peers peerId =
        some (ofNat (sentTo peerId engine arrivals), ofNat (receivedFrom peerId arrivals)) := by
  intro claim
  have ledger := claim servedEngine "alice" [(1, "alice", .wantBlock sampleHash 0)]
    (by decide +kernel)
  revert ledger
  decide +kernel

end A3Net.Bitswap
