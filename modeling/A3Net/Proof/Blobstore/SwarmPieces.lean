import A3Net.Construction.Blobstore.Swarm

namespace A3Net.Swarm

open SwarmDownloader List Option

/-- The last registration of an address counts. -/
def offers (peers : List (String × Finset Nat)) (index : Nat) (addr : String) : Bool :=
  (peers.reverse.lookup addr).any fun havePieces => decide (index ∈ havePieces)

/-- Among peers without failures the first one in the map order is asked. -/
def holder (order : List String) (peers : List (String × Finset Nat)) (index : Nat) :
    Option String :=
  order.find? (offers peers index)

/-- This is the data with which the holder of a piece answers. -/
def answer (fetch : ChunkFetcher) (order : List String) (peers : List (String × Finset Nat))
    (index : Nat) : Option Bytes :=
  (holder order peers index).bind fun peer =>
    match fetch peer index with
    | .ok data => some data
    | _ => none

/-- The holders answer for all pieces with these chunks. -/
def Served (fetch : ChunkFetcher) (order : List String) (peers : List (String × Finset Nat))
    (chunkCount : Nat) (chunks : List Bytes) : Prop :=
  (List.range chunkCount).map (answer fetch order peers) = chunks.map some
deriving Decidable

/-- The pieces stand at their indices, and their number never changes. -/
structure Shape (size chunkCount : Nat) (swarm : SwarmDownloader) : Prop where
  size : swarm.size = size
  count : swarm.chunkCount = chunkCount
  pieces : swarm.pieces.length = chunkCount
  index : ∀ (index : Nat) (piece : Piece), swarm.pieces[index]? = some piece → piece.index = index

/-- No registered peer has failed. -/
def Unharmed (peers : List (String × Finset Nat)) (swarm : SwarmDownloader) : Prop :=
  ∀ addr, swarm.peers.lookup addr = (peers.reverse.lookup addr).map fun havePieces =>
    {addr := addr, havePieces := havePieces, lastSuccess := 0}

/-- Some piece has failed for good. -/
def Lost (swarm : SwarmDownloader) : Prop :=
  ∃ (index : Nat) (piece : Piece), swarm.pieces[index]? = some piece ∧ piece.isFailed = true

@[simp] theorem modifyPiece_getElem? (swarm : SwarmDownloader) {index other : Nat}
    (change : Piece → Piece) :
    (swarm.modifyPiece index change).pieces[other]? =
      if index = other then (swarm.pieces[other]?).map change
      else swarm.pieces[other]? := by
  simp only [modifyPiece, getElem?_modify]
  split
  · rfl
  · exact map_id'

/-- A change of one piece that keeps its index keeps the shape. -/
theorem Shape.modifyPiece {size chunkCount : Nat} {swarm : SwarmDownloader}
    (shape : Shape size chunkCount swarm) (index : Nat) (change : Piece → Piece)
    (keeps : ∀ piece, (change piece).index = piece.index) :
    Shape size chunkCount (swarm.modifyPiece index change) where
  size := shape.size
  count := shape.count
  pieces := (length_modify _ _ _).trans shape.pieces
  index := by
    intro other piece found
    rw [modifyPiece_getElem?] at found
    split at found
    · obtain ⟨before, stands, rfl⟩ := map_eq_some_iff.mp found
      rw [keeps]
      exact shape.index other before stands
    · exact shape.index other piece found

/-- The state that a fetch result leaves in its piece. -/
def outcome (now : Nat) : FetchResult → PieceState
  | .ok data => .verified data now
  | .error text => .failed text
  | .timeout => .failed "Timeout"

variable {size chunkCount : Nat} {swarm : SwarmDownloader}

section

variable (shape : Shape size chunkCount swarm)
include shape

theorem Shape.markDownloading (now index : Nat)
    (peer : String) : Shape size chunkCount (swarm.markDownloading now index peer) := by
  apply shape.modifyPiece
  intro piece
  split
  · split <;> rfl
  · rfl

theorem Shape.markFailed (index : Nat)
    (error : String) : Shape size chunkCount (swarm.markFailed index error) :=
  shape.modifyPiece index _ fun _ => rfl

theorem Shape.settle (now index : Nat) (peer : String) (result : FetchResult) :
    Shape size chunkCount (Swarm.settle swarm now index peer result) := by
  have marked := shape.modifyPiece index (fun piece => {piece with state := outcome now result})
    fun _ => rfl
  cases result <;> exact ⟨marked.size, marked.count, marked.pieces, marked.index⟩

end

theorem settle_getElem? (swarm : SwarmDownloader) (now index other : Nat) (peer : String)
    (result : FetchResult) :
    (settle swarm now index peer result).pieces[other]? =
      if index = other then
        (swarm.pieces[other]?).map fun piece => {piece with state := outcome now result}
      else swarm.pieces[other]? := by
  cases result <;> exact modifyPiece_getElem? _ _

variable (swarm) (contentHash : ContentHash) (order : List String)
  (peers : List (String × Finset Nat))

/-- The healthy candidates of a piece, while no peer has failed. -/
theorem candidates_head? {swarm : SwarmDownloader} (unharmed : Unharmed peers swarm)
    (now index : Nat) :
    (((order.filterMap fun addr => swarm.peers.lookup addr).filter fun peer =>
      decide (index ∈ peer.havePieces) && peer.isHealthy now).head?.map PeerInfo.addr) =
      if now < healthyWindow then holder order peers index else none := by
  induction order with
  | nil => simp [holder]
  | cons addr rest ih =>
    rw [filterMap_cons, unharmed addr, holder, find?_cons]
    cases found : peers.reverse.lookup addr with
    | none =>
      simp only [offers, found, map_none, any_none]
      exact ih
    | some havePieces =>
      have healthy : PeerInfo.isHealthy
          {addr := addr, havePieces := havePieces, lastSuccess := 0} now =
            decide (now < healthyWindow) := by
        simp [PeerInfo.isHealthy]
      simp only [offers, found, map_some, any_some, filter_cons, healthy]
      by_cases has : index ∈ havePieces
      · by_cases fresh : now < healthyWindow
        · simp [has, fresh]
        · simp only [fresh, has, decide_true, decide_false, Bool.and_false, Bool.false_eq_true,
            if_false] at ih ⊢
          exact ih
      · simp only [has, decide_false, Bool.false_and, Bool.false_eq_true, if_false]
        exact ih

/-- Peers without failures tie, so the stable sort leaves the map order. -/
theorem getPeerForPiece_eq_holder {swarm : SwarmDownloader}
    (unharmed : Unharmed peers swarm) (now index : Nat) :
    swarm.getPeerForPiece order now index =
      if now < healthyWindow then holder order peers index else none := by
  have tie : ∀ peer ∈ (order.filterMap fun addr => swarm.peers.lookup addr).filter
      (fun peer => decide (index ∈ peer.havePieces) && peer.isHealthy now),
      peer.downloadRate = 0 ∧ peer.failures = 0 := by
    intro peer candidate
    obtain ⟨addr, _, found⟩ := mem_filterMap.mp (mem_of_mem_filter candidate)
    rw [unharmed addr] at found
    obtain ⟨havePieces, _, rfl⟩ := map_eq_some_iff.mp found
    exact ⟨rfl, rfl⟩
  unfold getPeerForPiece
  dsimp only
  rw [mergeSort_of_pairwise, candidates_head? order peers unharmed]
  rw [pairwise_iff_forall_sublist]
  intro first second pair
  have firstTie := tie first (pair.subset mem_cons_self)
  have secondTie := tie second (pair.subset (mem_cons_of_mem _ mem_cons_self))
  simp [preferred, firstTie, secondTie]

theorem new_shape {size chunkCount : Nat} :
    Shape size chunkCount (.new contentHash size chunkCount) where
  size := rfl
  count := rfl
  pieces := by simp [SwarmDownloader.new]
  index := by
    intro index piece found
    simp only [SwarmDownloader.new, getElem?_map, map_eq_some_iff] at found
    obtain ⟨same, stands, rfl⟩ := found
    exact ((List.getElem?_eq_some_iff.mp stands).2.symm.trans (getElem_range _)).symm ▸ rfl

/-- Every piece still waits for its first attempt. -/
def Untouched (swarm : SwarmDownloader) : Prop :=
  ∀ piece ∈ swarm.pieces, piece.state = .pending

variable {now : Nat} {piece : Piece}

/-- A registration changes availabilities and no state of a piece. -/
theorem registerPeer_getElem? {addr : String} {havePieces : Finset Nat} {index : Nat}
    (found : (swarm.registerPeer now addr havePieces).pieces[index]? = some piece) :
    ∃ before, swarm.pieces[index]? = some before ∧ before.index = piece.index ∧
      before.state = piece.state := by
  simp only [registerPeer, addPeer, getElem?_mapIdx, map_eq_some_iff] at found
  obtain ⟨before, stands, rfl⟩ := found
  refine ⟨before, stands, ?_⟩
  split <;> exact ⟨rfl, rfl⟩

/-- The first attempt finds all peers without failures and all pieces pending. -/
theorem registerPeers_start (size chunkCount : Nat) (peers : List (String × Finset Nat)) :
    Shape size chunkCount (registerPeers (.new contentHash size chunkCount) 0 peers) ∧
      Untouched (registerPeers (.new contentHash size chunkCount) 0 peers) ∧
      Unharmed peers (registerPeers (.new contentHash size chunkCount) 0 peers) := by
  induction peers using List.reverseRecOn with
  | nil =>
    refine ⟨new_shape contentHash, ?_, fun addr => rfl⟩
    intro piece member
    obtain ⟨index, _, rfl⟩ := mem_map.mp member
    rfl
  | append_singleton earlier peer ih =>
    obtain ⟨shape, untouched, unharmed⟩ := ih
    obtain ⟨name, havePieces⟩ := peer
    have last : registerPeers (.new contentHash size chunkCount) 0
        (earlier ++ [(name, havePieces)]) =
        (registerPeers (.new contentHash size chunkCount) 0 earlier).registerPeer 0
          name havePieces := by
      simp [registerPeers]
    rw [last]
    refine ⟨⟨shape.size, shape.count, ?_, ?_⟩, ?_, ?_⟩
    · simpa [registerPeer, addPeer] using shape.pieces
    · intro index piece found
      obtain ⟨before, stands, same, _⟩ := registerPeer_getElem? _ found
      rw [← same]
      exact shape.index index before stands
    · intro piece member
      obtain ⟨index, found⟩ := mem_iff_getElem?.mp member
      obtain ⟨before, stands, _, same⟩ := registerPeer_getElem? _ found
      rw [← same]
      exact untouched before (mem_of_getElem? stands)
    · intro addr
      simp only [registerPeer, addPeer, Table.lookup_insert_eq, reverse_append, reverse_cons,
        reverse_nil, nil_append, singleton_append, lookup_cons]
      by_cases same : addr = name
      · subst same
        simp
      · have ne : (addr == name) = false := by simpa using same
        simp only [if_neg same, ne]
        exact unharmed addr

/-- This is the data of a verified piece. -/
def Piece.payload (piece : Piece) : Option Bytes :=
  match piece.state with
  | .verified data _ => some data
  | _ => none

theorem getVerifiedData_payload :
    swarm.getVerifiedData.map Prod.snd = swarm.pieces.filterMap Piece.payload := by
  unfold getVerifiedData
  rw [map_filterMap]
  congr 1
  funext piece
  obtain ⟨index, state, availability⟩ := piece
  cases state <;> rfl

theorem payload_all {pieces : List Piece} (verified : ∀ piece ∈ pieces, piece.payload.isSome) :
    pieces.map Piece.payload = (pieces.filterMap Piece.payload).map some := by
  induction pieces with
  | nil => rfl
  | cons piece rest ih =>
    obtain ⟨data, present⟩ := isSome_iff_exists.mp (verified piece mem_cons_self)
    rw [map_cons, filterMap_cons, present, map_cons, ih (forall_mem_cons.mp verified).2]

/-- Every verified piece holds the answer of its holder. -/
def Answered (fetch : ChunkFetcher) (order : List String) (peers : List (String × Finset Nat))
    (swarm : SwarmDownloader) : Prop :=
  ∀ (index : Nat) (piece : Piece), swarm.pieces[index]? = some piece →
    ∀ data, piece.payload = some data → answer fetch order peers index = some data

variable {fetch : ChunkFetcher} {order peers}
variable {swarm}

/-- A failed piece is missing at the end, so a result needs the answers of the holders. -/
theorem reassemble_served (shape : Shape size chunkCount swarm)
    (faithful : Lost swarm ∨ Answered fetch order peers swarm) {bytes : Bytes}
    (returned : swarm.reassemble = some (.ok bytes)) :
    size ≤ capacityLimit ∧ ∃ chunks, Served fetch order peers chunkCount chunks ∧
      chunks.flatten = bytes := by
  have equal := getVerifiedData_payload swarm
  have length : swarm.getVerifiedData.length = (swarm.pieces.filterMap Piece.payload).length := by
    rw [← equal, length_map]
  revert returned
  fun_cases reassemble swarm with
  | case3 _ complete small =>
    rintro ⟨⟩
    rw [shape.size] at small
    have all : ∀ piece ∈ swarm.pieces, piece.payload.isSome := by
      rw [← filterMap_length_eq_length, ← length, shape.pieces, ← shape.count]
      exact not_not.mp complete
    refine ⟨Nat.le_of_not_lt small, swarm.pieces.filterMap Piece.payload, ?_, ?_⟩
    · rw [Served, ← payload_all all]
      apply ext_getElem?
      intro index
      by_cases inside : index < chunkCount
      · have stands := getElem?_eq_getElem (shape.pieces.symm ▸ inside)
        have member := mem_of_getElem? stands
        obtain ⟨data, present⟩ := isSome_iff_exists.mp (all _ member)
        have answered : answer fetch order peers index = some data := by
          rcases faithful with ⟨lost, piece, found, failed⟩ | answered
          · have missing := all piece (mem_of_getElem? found)
            unfold Piece.isFailed at failed
            unfold Piece.payload at missing
            split at missing <;> simp_all
          · exact answered index _ stands data present
        simp [stands, present, answered, inside]
      · have outside : swarm.pieces.length ≤ index := shape.pieces.symm ▸ Nat.le_of_not_lt inside
        simp [inside, outside]
    · rw [← equal, flatMap_def]
  | _ => rintro ⟨⟩

/-- A download is spoiled by a failed piece, or it has only answers of the holders. -/
def Faithful (fetch : ChunkFetcher) (order : List String) (peers : List (String × Finset Nat))
    (swarm : SwarmDownloader) : Prop :=
  Lost swarm ∨ (Unharmed peers swarm ∧ Answered fetch order peers swarm)

/-- The piece at this index can still be asked for. -/
def Open (swarm : SwarmDownloader) (index : Nat) : Prop :=
  ∃ piece, swarm.pieces[index]? = some piece ∧ piece.isFailed = false

variable {index : Nat}

/-- A change at an open index keeps the failed piece. -/
theorem Lost.of_open (lost : Lost swarm) (asked : Open swarm index) {after : SwarmDownloader}
    (frame : ∀ other, index ≠ other → after.pieces[other]? = swarm.pieces[other]?) :
    Lost after := by
  obtain ⟨other, piece, found, failed⟩ := lost
  obtain ⟨open_, stands, fine⟩ := asked
  have ne : index ≠ other := by
    rintro rfl
    rw [found] at stands
    cases stands
    rw [failed] at fine
    cases fine
  exact ⟨other, piece, (frame other ne).trans found, failed⟩

theorem markDownloading_frame (swarm : SwarmDownloader) (now index : Nat) (peer : String)
    (other : Nat) (ne : index ≠ other) :
    (swarm.markDownloading now index peer).pieces[other]? = swarm.pieces[other]? := by
  rw [markDownloading, modifyPiece_getElem?, if_neg ne]

theorem settle_frame (swarm : SwarmDownloader) (now index : Nat) (peer : String)
    (result : FetchResult) (other : Nat) (ne : index ≠ other) :
    (settle swarm now index peer result).pieces[other]? = swarm.pieces[other]? := by
  rw [settle_getElem?, if_neg ne]

variable {peer : String}

/-- The piece that is asked for is downloading afterwards. -/
theorem markDownloading_state {swarm : SwarmDownloader}
    (found : (swarm.markDownloading now index peer).pieces[index]? = some piece) :
    piece.payload = none ∧ piece.isFailed = false := by
  rw [markDownloading, modifyPiece_getElem?, if_pos rfl] at found
  obtain ⟨before, _, rfl⟩ := map_eq_some_iff.mp found
  obtain ⟨number, state, availability⟩ := before
  cases state with
  | downloading requestedFrom startTime =>
    dsimp only
    split <;> exact ⟨rfl, rfl⟩
  | _ => exact ⟨rfl, rfl⟩

theorem Open.markDownloading (asked : Open swarm index) (now : Nat) (peer : String) :
    Open (swarm.markDownloading now index peer) index := by
  obtain ⟨piece, stands, _⟩ := asked
  have present : ∃ after, (swarm.markDownloading now index peer).pieces[index]? = some after := by
    rw [SwarmDownloader.markDownloading, modifyPiece_getElem?, if_pos rfl, stands]
    exact ⟨_, rfl⟩
  obtain ⟨after, found⟩ := present
  exact ⟨after, found, (markDownloading_state found).2⟩

theorem Faithful.markDownloading (faithful : Faithful fetch order peers swarm)
    (asked : Open swarm index) (now : Nat) (peer : String) :
    Faithful fetch order peers (swarm.markDownloading now index peer) := by
  have frame := markDownloading_frame swarm now index peer
  rcases faithful with lost | ⟨unharmed, answered⟩
  · exact .inl (lost.of_open asked frame)
  · refine .inr ⟨unharmed, fun other piece found data present => ?_⟩
    by_cases same : index = other
    · subst same
      rw [(markDownloading_state found).1] at present
      cases present
    · exact answered other piece (frame other same ▸ found) data present

theorem markFailed_lost (asked : Open swarm index) (error : String) :
    Lost (swarm.markFailed index error) := by
  obtain ⟨piece, stands, _⟩ := asked
  refine ⟨index, {piece with state := .failed error}, ?_, rfl⟩
  rw [markFailed, modifyPiece_getElem?, if_pos rfl, stands]
  rfl

/-- The answer of the holder keeps the download faithful, and any other result spoils it. -/
theorem Faithful.settle (faithful : Faithful fetch order peers swarm)
    (asked : Open swarm index) (now : Nat) (peer : String)
    (held : Lost swarm ∨ holder order peers index = some peer) :
    Faithful fetch order peers (Swarm.settle swarm now index peer (fetch peer index)) := by
  have frame := settle_frame swarm now index peer (fetch peer index)
  rcases held with lost | held
  · exact .inl (lost.of_open asked frame)
  rcases faithful with lost | ⟨unharmed, answered⟩
  · exact .inl (lost.of_open asked frame)
  · obtain ⟨piece, stands, _⟩ := asked
    have settled := settle_getElem? swarm now index index peer (fetch peer index)
    rw [if_pos rfl, stands] at settled
    cases result : fetch peer index with
    | ok data =>
      rw [result] at frame settled
      refine .inr ⟨unharmed, fun other after found given present => ?_⟩
      by_cases same : index = other
      · subst same
        rw [settled] at found
        cases found
        cases present
        simp [answer, held, result]
      · exact answered other after (frame other same ▸ found) given present
    | error | timeout =>
      rw [result] at settled
      exact .inl ⟨index, _, settled, rfl⟩

/-- The first pending piece can be asked for. -/
theorem selectNextPiece_open (selected : swarm.selectNextPiece .strictPriority = some index) :
    Open swarm index := by
  have pending := find?_some selected
  obtain ⟨piece, stands, waits⟩ := (any_eq_true _ _).mp pending
  refine ⟨piece, stands, ?_⟩
  obtain ⟨number, state, availability⟩ := piece
  cases state <;> first | rfl | cases waits

/-- Whoever is asked while no piece has failed is the holder of the piece. -/
theorem Faithful.held (faithful : Faithful fetch order peers swarm)
    (chosen : swarm.getPeerForPiece order now index = some peer) :
    Lost swarm ∨ holder order peers index = some peer := by
  rcases faithful with lost | ⟨unharmed, _⟩
  · exact .inl lost
  · rw [getPeerForPiece_eq_holder order peers unharmed] at chosen
    split at chosen
    · exact .inr chosen
    · cases chosen

end A3Net.Swarm
