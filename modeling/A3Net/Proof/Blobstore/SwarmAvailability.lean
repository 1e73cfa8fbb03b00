import A3Net.Construction.Blobstore.Swarm
import A3Net.Machine.Run
import Mathlib.Data.Finset.Card

namespace A3Net.Swarm

open SwarmDownloader List Machine

/-- These calls change what a peer has. -/
inductive PeerCall where
  | add (havePieces : Finset Nat)
  | register (havePieces : Finset Nat)
  | discover (available : List Nat)

structure Registration where
  now : Nat
  addr : String
  call : PeerCall

namespace SwarmDownloader

variable (swarm : SwarmDownloader)

def enrol (peer : Registration) : SwarmDownloader :=
  match peer.call with
  | .add havePieces => swarm.addPeer peer.now peer.addr havePieces
  | .register havePieces => swarm.registerPeer peer.now peer.addr havePieces
  | .discover available => swarm.registerPeerWithDiscovery peer.now peer.addr available

def known (addr : String) : Finset Nat :=
  ((swarm.peers.lookup addr).map PeerInfo.havePieces).getD ∅

/-- These registered peers have the piece. -/
def holders (index : Nat) : Finset String :=
  swarm.peers.keys.toFinset.filter fun addr => index ∈ swarm.known addr

def Counted : Prop :=
  ∀ index piece, swarm.pieces[index]? = some piece → piece.availability = (swarm.holders index).card

end SwarmDownloader

/-- This is what the peer has after the call. -/
def PeerCall.pieces (known : Finset Nat) : PeerCall → Finset Nat
  | .add havePieces | .register havePieces => havePieces
  | .discover available => available.foldl (fun known piece => insert piece known) known

/-- The call raises the count of the piece by so much. -/
def PeerCall.raises (index : Nat) : PeerCall → Nat
  | .add _ => 0
  | .register havePieces => if index ∈ havePieces then 1 else 0
  | .discover available => available.count index

/-- A peer that is added has the pieces it had, a peer that is registered had none, and a discovery
names only new pieces and each of them once. -/
def Fresh (swarm : SwarmDownloader) (peer : Registration) : Prop :=
  ∀ index < swarm.pieces.length,
    match peer.call with
    | .add havePieces => index ∈ havePieces ↔ index ∈ swarm.known peer.addr
    | .register _ => index ∉ swarm.known peer.addr
    | .discover available => index ∈ available →
        index ∉ swarm.known peer.addr ∧ available.count index = 1

variable (swarm : SwarmDownloader) (peer : Registration) (index : Nat)

theorem foldl_raise {available : List Nat} :
    (available.foldl raiseAvailability swarm).peers = swarm.peers ∧
      (available.foldl raiseAvailability swarm).pieces[index]? =
        (swarm.pieces[index]?).map fun piece =>
          {piece with availability := piece.availability + available.count index} := by
  induction available generalizing swarm with
  | nil => simp
  | cons first rest ih =>
    obtain ⟨peers, pieces⟩ := ih (swarm.raiseAvailability first)
    refine ⟨peers, pieces.trans ?_⟩
    simp only [raiseAvailability, modifyPiece, getElem?_modify, count_cons, Option.map_eq_map,
      Option.map_map]
    congr 1
    funext piece
    by_cases same : first = index
    · simp [same, Nat.add_assoc, Nat.add_comm 1]
    · simp [same]

theorem enrol_pieces :
    (swarm.enrol peer).pieces[index]? = (swarm.pieces[index]?).map fun piece =>
      {piece with availability := piece.availability + peer.call.raises index} := by
  unfold enrol
  split
  · next call => simp [addPeer, call, PeerCall.raises]
  · next call =>
    simp only [registerPeer, addPeer, getElem?_mapIdx, call, PeerCall.raises]
    congr 1
    funext piece
    split <;> rfl
  · next available call =>
    rw [call]
    exact (foldl_raise _ index).2

theorem enrol_known (other : String) :
    (swarm.enrol peer).known other = if other = peer.addr then
      peer.call.pieces (swarm.known peer.addr) else swarm.known other := by
  unfold enrol known
  split
  · next call =>
    simp only [addPeer, Table.lookup_insert_eq, call]
    split <;> rfl
  · next call =>
    simp only [registerPeer, addPeer, Table.lookup_insert_eq, call]
    split <;> rfl
  · next available call =>
    rw [registerPeerWithDiscovery, (foldl_raise _ 0).1, Table.lookup_insert_eq, call]
    split
    · cases swarm.peers.lookup peer.addr <;> rfl
    · rfl

theorem mem_holders (addr : String) : addr ∈ swarm.holders index ↔ index ∈ swarm.known addr := by
  rw [holders, Finset.mem_filter, and_iff_right_of_imp]
  intro has
  unfold known at has
  cases found : swarm.peers.lookup addr with
  | none => simp [found] at has
  | some => exact mem_toFinset.mpr (Table.mem_keys_of_lookup found)

/-- Only the peer of the call can join or leave. -/
theorem holders_card :
    ((swarm.enrol peer).holders index).card +
        (if index ∈ swarm.known peer.addr then 1 else 0) =
      (swarm.holders index).card +
        if index ∈ peer.call.pieces (swarm.known peer.addr) then 1 else 0 := by
  have apart : ∀ peers : Finset String,
      peers.card = (peers.erase peer.addr).card + if peer.addr ∈ peers then 1 else 0 := by
    intro peers
    split
    · next inside => exact (Finset.card_erase_add_one inside).symm
    · next outside => rw [Finset.erase_eq_of_notMem outside, Nat.add_zero]
  have others : ((swarm.enrol peer).holders index).erase peer.addr =
      (swarm.holders index).erase peer.addr := by
    ext other
    simp only [Finset.mem_erase, mem_holders, enrol_known]
    exact and_congr_right fun ne => by rw [if_neg ne]
  rw [apart (swarm.holders index), apart ((swarm.enrol peer).holders index), others]
  simp only [mem_holders, enrol_known, if_true]
  exact Nat.add_right_comm ..

variable {swarm}

theorem mem_foldl_insert (available : List Nat) (known : Finset Nat) :
    index ∈ available.foldl (fun known piece => insert piece known) known ↔
      index ∈ known ∨ index ∈ available := by
  induction available generalizing known with
  | nil => simp
  | cons first rest ih => rw [foldl_cons, ih, Finset.mem_insert, mem_cons, or_assoc, or_left_comm]

theorem counted_iff (counted : swarm.Counted) : (swarm.enrol peer).Counted ↔ Fresh swarm peer := by
  refine forall_congr' fun index => ?_
  have moved := holders_card swarm peer index
  rw [enrol_pieces]
  cases found : swarm.pieces[index]? with
  | none => simp [List.getElem?_eq_none_iff.mp found]
  | some piece =>
    have before := counted index piece found
    have exact_ : piece.availability + peer.call.raises index =
        ((swarm.enrol peer).holders index).card ↔ peer.call.raises index +
          (if index ∈ swarm.known peer.addr then 1 else 0) =
            if index ∈ peer.call.pieces (swarm.known peer.addr) then 1 else 0 := by
      omega
    simp only [Option.map_some, Option.some.injEq, forall_eq', exact_, true_imp_iff,
      (List.getElem?_eq_some_iff.mp found).1]
    cases call : peer.call with
    | add pieces | register pieces =>
      by_cases knows : index ∈ swarm.known peer.addr <;> by_cases has : index ∈ pieces <;>
        simp [knows, has, PeerCall.raises, PeerCall.pieces]
    | discover available =>
      by_cases knows : index ∈ swarm.known peer.addr <;> by_cases has : index ∈ available <;>
        simp [knows, has, PeerCall.raises, PeerCall.pieces, mem_foldl_insert, count_eq_zero]

/-- Along a run of registrations the counts are right exactly when each registration is fresh. -/
theorem availability_counted_iff (contentHash : ContentHash) (size chunkCount : Nat)
    (peers : List Registration) :
    Always enrol Counted (.new contentHash size chunkCount) peers ↔
      Guarded enrol Fresh (.new contentHash size chunkCount) peers := by
  have start : (SwarmDownloader.new contentHash size chunkCount).Counted := by
    intro index piece found
    obtain ⟨_, _, rfl⟩ := mem_map.mp (mem_of_getElem? found)
    rfl
  exact always_iff_guarded_of enrol (fun _ => True)
    (fun _ peer _ counted _ => counted_iff peer counted) (fun _ _ _ _ _ _ => trivial) trivial
    start (guarded_true enrol _ peers)

/-- A peer that registers again is counted twice. -/
theorem availability_not_counted :
    ¬ ∀ (contentHash : ContentHash) (size chunkCount : Nat) (peers : List Registration),
      Always enrol Counted (.new contentHash size chunkCount) peers := by
  intro always
  have final := (always sampleHash 1 1 (replicate 2 ⟨0, "alice", .register {0}⟩)).final
  exact absurd (final 0 _ rfl) (by decide)

end A3Net.Swarm
