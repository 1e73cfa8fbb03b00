import A3Net.Construction.Blobstore.Bitswap
import A3Net.Machine.Run

namespace A3Net.Bitswap

open Machine BitswapEngine ContentHash

/-- These are the blocks that the engine takes for its own, the data it has received and the
source of what it serves. -/
def BitswapEngine.stock (engine : BitswapEngine) :
    Finset ContentHash × Table ContentHash Bytes × (ContentHash → Option Bytes) :=
  (engine.wants.localBlocks, engine.wants.blockData, engine.blockProvider)

theorem WantManager.pushPending_eq (wants : WantManager) (want : PendingWant) :
    ∃ pendingWants, wants.pushPending want = {wants with pendingWants} := by
  unfold pushPending
  split <;> exact ⟨_, rfl⟩

/-- The wants of other peers do not reach the stored blocks. -/
theorem WantManager.removeWants_eq (wants : WantManager) (wanters : List PeerId)
    (block : ContentHash) : ∃ peerWants,
      wanters.foldl (fun wants wanter => wants.removeWant wanter block) wants =
        {wants with peerWants} := by
  induction wanters generalizing wants with
  | nil => exact ⟨_, rfl⟩
  | cons wanter rest ih => exact ih (wants.removeWant wanter block)

namespace BitswapEngine

variable (engine : BitswapEngine) (peerId : PeerId) (block : ContentHash) (now : Nat)

theorem handleWantBlock_eq :
    engine.handleWantBlock peerId block = engine.serveBlock peerId block :=
  ite_self _

theorem serveBlock_stock : (engine.serveBlock peerId block).1.stock = engine.stock := by
  unfold serveBlock
  split <;> rfl

variable {sessionId : UInt64} (blocks : List ContentHash) (priority : Int)

/-- A wanted block counts as held from then on. -/
theorem createWants_stock :
    (engine.createWants now sessionId blocks priority).1.stock =
      (blocks.foldl (fun held block => insert block held) engine.wants.localBlocks,
        engine.stock.2) := by
  change (blocks.foldl _ engine).stock = _
  generalize engine.sessions.sessions.lookup sessionId = session
  induction blocks generalizing engine with
  | nil => rfl
  | cons block rest ih =>
    obtain ⟨pending, pushed⟩ := (engine.wants.addLocalBlock block).pushPending_eq
      (.ofWantHave now block priority)
    rw [List.foldl_cons, ih]
    simp only [createWant, pushed]
    rfl

theorem requestBlock_stock (block : ContentHash) :
    (engine.requestBlock now priority block).1.stock = engine.stock := by
  obtain ⟨pending, pushed⟩ := engine.wants.pushPending_eq (.wantBlock now block priority)
  unfold requestBlock
  rw [pushed]
  split
  · rfl
  · dsimp only
    split <;> rfl

theorem requestBlocks_stock :
    (engine.requestBlocks now sessionId blocks priority).1.stock = engine.stock := by
  change (blocks.foldl _ (engine, [])).1.stock = _
  generalize ([] : List BitswapMessage) = sent
  induction blocks generalizing engine sent with
  | nil => rfl
  | cons block rest ih =>
    rw [List.foldl_cons, ih]
    exact requestBlock_stock engine now priority block

end BitswapEngine

variable (engine : BitswapEngine) (call : Call)

/-- Only a block message from a known peer stores data. -/
def storedBy : Call → Option (ContentHash × Bytes)
  | .processMessage _ peerId (.block hash data) =>
    if peerId ∈ engine.peers then some (hash, data) else none
  | _ => none

theorem storedBy_eq_some {engine : BitswapEngine} {call : Call} {hash : ContentHash} {data : Bytes}
    (stored : storedBy engine call = some (hash, data)) :
    ∃ now peerId, call = .processMessage now peerId (.block hash data) ∧ peerId ∈ engine.peers := by
  unfold storedBy at stored
  split at stored
  · next now peerId hash data =>
    split at stored
    · next known =>
      cases stored
      exact ⟨now, peerId, rfl, known⟩
    · cases stored
  · cases stored

/-- These blocks count as held after a call. -/
def heldBy : Call → List ContentHash
  | .createWants _ _ blocks _ => blocks
  | .addLocalBlock block => [block]
  | _ => []

theorem processMessage_stock {now : Nat} {peerId : PeerId} {msg : BitswapMessage} :
    (engine.processMessage now peerId msg).1.stock = (engine.wants.localBlocks,
      (match storedBy engine (.processMessage now peerId msg) with
        | some (hash, data) => AList.insert hash data engine.wants.blockData
        | none => engine.wants.blockData), engine.blockProvider) := by
  unfold processMessage
  by_cases known : peerId ∈ engine.peers
  · rw [if_pos known]
    change (handleMessage _ now peerId msg).1.stock = _
    cases msg with
    | block hash data =>
      obtain ⟨peerWants, removed⟩ := (engine.wants.addBlockData hash data).removeWants_eq
        ((engine.wants.addBlockData hash data).getWanters hash) hash
      simp only [storedBy, if_pos known, handleMessage, handleBlock, removed]
      rfl
    | wantHave block priority sendDontHave =>
      simp only [handleMessage, handleWantHave]
      split <;> rfl
    | wantBlock block priority =>
      rw [handleMessage, handleWantBlock_eq, serveBlock_stock]
      rfl
    | _ => rfl
  · cases msg <;> simp [storedBy, known, countMessage, BitswapEngine.stock]

/-- Each call stores what its message carries and leaves the other blocks alone. -/
theorem call_stock :
    (engine.call call).stock =
      ((heldBy call).foldl (fun held block => insert block held) engine.wants.localBlocks,
        (match storedBy engine call with
          | some (hash, data) => AList.insert hash data engine.wants.blockData
          | none => engine.wants.blockData), engine.blockProvider) := by
  cases call with
  | processMessage now peerId msg => exact processMessage_stock engine
  | createWants now sessionId blocks priority =>
    exact createWants_stock engine now blocks priority
  | requestBlocks now sessionId blocks priority =>
    exact requestBlocks_stock engine now blocks priority
  | addPeer now peerId =>
    simp only [call, BitswapEngine.addPeer]
    split
    · rfl
    · split <;> rfl
  | removePeer peerId =>
    simp only [call, BitswapEngine.removePeer]
    split <;> rfl
  | _ => rfl

/-- A sound engine returns a block only under its own hash. -/
def Sound : Prop :=
  ∀ hash data, engine.getBlock hash = some data → fromBytes data = hash

/-- A genuine call delivers a block only under its own hash. -/
def Genuine : Call → Prop
  | .processMessage _ peerId (.block hash data) =>
    peerId ∈ engine.peers → fromBytes data = hash
  | _ => True

theorem genuine_iff_storedBy :
    Genuine engine call ↔
      ∀ hash data, storedBy engine call = some (hash, data) → fromBytes data = hash := by
  constructor
  · intro genuine hash data stored
    obtain ⟨now, peerId, rfl, known⟩ := storedBy_eq_some stored
    exact genuine known
  · intro stored
    unfold Genuine
    split
    · next now peerId hash data => exact fun known => stored hash data (if_pos known)
    · trivial

/-- One call keeps the engine sound exactly when it is genuine. -/
theorem sound_call_iff (sound : Sound engine) : Sound (engine.call call) ↔ Genuine engine call := by
  rw [genuine_iff_storedBy]
  have frame := congrArg (·.2.1) (call_stock engine call)
  cases stored : storedBy engine call with
  | none =>
    rw [stored] at frame
    have same : ∀ hash, (engine.call call).getBlock hash = engine.getBlock hash := fun hash =>
      congrArg (fun table : Table ContentHash Bytes => table.lookup hash) frame
    simpa [Sound, same] using sound
  | some pair =>
    obtain ⟨hash, data⟩ := pair
    rw [stored] at frame
    have reads : ∀ other, (engine.call call).getBlock other =
        if other = hash then some data else engine.getBlock other := fun other =>
      (congrArg (fun table : Table ContentHash Bytes => table.lookup other) frame).trans
        (Table.lookup_insert_eq _ _)
    constructor
    · intro after otherHash otherData equal
      cases equal
      exact after hash data (by rw [reads, if_pos rfl])
    · intro genuine other value found
      rw [reads] at found
      split at found
      · next same =>
        cases found
        rw [same]
        exact genuine hash data rfl
      · exact sound other value found

/-- From an engine without blocks, every block that `get_block` returns has the hash it is asked
under, exactly when each delivered block has the hash that its message names. -/
theorem getBlock_hash_iff (engine : BitswapEngine) (calls : List Call)
    (empty : engine.wants.blockData = ∅) :
    (∀ past, past <+: calls → ∀ hash data,
      (run BitswapEngine.call engine past).getBlock hash = some data → fromBytes data = hash) ↔
      Guarded BitswapEngine.call Genuine engine calls := by
  have start : Sound engine := by
    intro hash data found
    have missing : engine.getBlock hash = none := by
      simp [getBlock, WantManager.getBlockData, empty]
    rw [missing] at found
    cases found
  exact always_iff_guarded call sound_call_iff start

/-- A known peer delivers these bytes under the sample hash. -/
def delivery (data : Bytes) : List Call :=
  [.addPeer 0 "mallory", .processMessage 1 "mallory" (.block sampleHash data)]

theorem getBlock_hash_iff_sample :
    (∀ past, past <+: delivery [0x61, 0x33, 0x6e, 0x65, 0x74] → ∀ hash data,
      (run BitswapEngine.call {} past).getBlock hash = some data → fromBytes data = hash) ∧
      Guarded BitswapEngine.call Genuine {} (delivery [0x61, 0x33, 0x6e, 0x65, 0x74]) := by
  have guarded : Guarded call Genuine {} (delivery [0x61, 0x33, 0x6e, 0x65, 0x74]) :=
    ⟨trivial, fun _ => by decide +kernel, trivial⟩
  exact ⟨(getBlock_hash_iff {} (delivery [0x61, 0x33, 0x6e, 0x65, 0x74]) rfl).mpr guarded, guarded⟩

/-- The empty data stays in the engine under the sample hash. -/
theorem getBlock_forged :
    ¬ ∀ (engine : BitswapEngine) (calls : List Call), engine.wants.blockData = ∅ →
      ∀ past, past <+: calls → ∀ hash data,
        (run BitswapEngine.call engine past).getBlock hash = some data → fromBytes data = hash := by
  intro claim
  have stored : (run call {} (delivery [])).getBlock sampleHash = some [] := by
    decide +kernel
  have wrong := claim {} (delivery []) rfl (delivery []) List.prefix_rfl sampleHash [] stored
  revert wrong
  decide +kernel

end A3Net.Bitswap
