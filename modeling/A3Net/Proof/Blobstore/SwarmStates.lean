import A3Net.Machine.Run
import A3Net.Proof.Blobstore.SwarmPieces

namespace A3Net.Swarm

open SwarmDownloader List Machine UInt64

/-- These calls change the state of a piece. -/
inductive Mark where
  | downloading (now : Nat) (peer : String)
  | verified (now : Nat) (data : Bytes)
  | failed (error : String)
  | failedBy (error peer : String)

def SwarmDownloader.mark (swarm : SwarmDownloader) : Nat × Mark → SwarmDownloader
  | (index, .downloading now peer) => swarm.markDownloading now index peer
  | (index, .verified now data) => swarm.markVerified now index data
  | (index, .failed error) => swarm.markFailed index error
  | (index, .failedBy error peer) => swarm.markFailedBy index error peer

/-- The state that a call leaves in its piece. -/
def Mark.outcome : Mark → PieceState → PieceState
  | .downloading _ peer, .downloading requestedFrom startTime =>
    .downloading (if peer ∈ requestedFrom then requestedFrom else requestedFrom ++ [peer]) startTime
  | .downloading now peer, _ => .downloading [peer] now
  | .verified now data, _ => .verified data now
  | .failed error, _ | .failedBy error _, _ => .failed error

def Mark.change (mark : Mark) (piece : Piece) : Piece :=
  {piece with state := mark.outcome piece.state}

/-- The bytes that a call adds to the count, whatever its piece is. -/
def Mark.bytes : Mark → UInt64
  | .verified _ data => ofNat data.length
  | _ => 0

def Piece.received (piece : Piece) : Nat := (piece.payload.getD []).length

variable {swarm : SwarmDownloader} {index : Nat} {piece : Piece} {mark : Mark}

theorem mark_pieces :
    (swarm.mark (index, mark)).pieces = swarm.pieces.modify index mark.change := by
  cases mark with
  | downloading now peer =>
    change swarm.pieces.modify index _ = _
    congr 1
    funext ⟨number, state, availability⟩
    cases state with
    | downloading requestedFrom startTime =>
      dsimp only [Mark.change, Mark.outcome]
      split <;> rfl
    | _ => rfl
  | _ => rfl

theorem mark_bytes :
    (swarm.mark (index, mark)).bytesDownloaded = swarm.bytesDownloaded + mark.bytes := by
  cases mark with
  | verified => rfl
  | _ => exact (UInt64.add_zero _).symm

/-- A changed piece changes the sum by its own part. -/
theorem received_modify {pieces : List Piece} (found : pieces[index]? = some piece)
    (change : Piece → Piece) :
    ((pieces.modify index change).map Piece.received).sum + piece.received =
      (pieces.map Piece.received).sum + (change piece).received := by
  induction pieces generalizing index with
  | nil => cases found
  | cons head rest ih =>
    cases index with
    | zero =>
      cases found
      simp only [modify_zero_cons, map_cons, sum_cons]
      omega
    | succ index =>
      have later := ih found
      simp only [modify_succ_cons, map_cons, sum_cons]
      omega

/-- The counted bytes are those of the verified pieces, and the end is told right. -/
def Exact (swarm : SwarmDownloader) : Prop :=
  swarm.bytesDownloaded = ofNat (swarm.pieces.map Piece.received).sum ∧
    (swarm.isComplete = true ↔ ∀ piece ∈ swarm.pieces, piece.isVerified = true)

/-- A call leaves the verified pieces as they are and the count exact. -/
def Settles (swarm : SwarmDownloader) (call : Nat × Mark) : Prop :=
  (∀ (index : Nat) (piece : Piece), swarm.pieces[index]? = some piece →
    piece.isVerified = true → (swarm.mark call).pieces[index]? = some piece) ∧
  Exact (swarm.mark call)

/-- A call may only say of a verified piece what is known, and that without data. No data come for a
piece that is missing. -/
def Harmless (swarm : SwarmDownloader) (call : Nat × Mark) : Prop :=
  match swarm.pieces[call.1]?.map Piece.state, call.2 with
  | some (.verified data receivedAt), .verified now again =>
    again = data ∧ now = receivedAt ∧ ofNat again.length = 0
  | some (.verified _ _), _ => False
  | none, .verified _ data => ofNat data.length = 0
  | _, _ => True

/-- So a harmless call leaves a verified piece alone and counts no bytes. -/
theorem harmless_iff :
    Harmless swarm (index, mark) ↔
      match swarm.pieces[index]? with
      | none => mark.bytes = 0
      | some piece => piece.isVerified = true → mark.change piece = piece ∧ mark.bytes = 0 := by
  unfold Harmless
  cases swarm.pieces[index]? with
  | none => cases mark <;> simp [Mark.bytes]
  | some piece =>
    obtain ⟨number, state, availability⟩ := piece
    cases state <;> cases mark <;>
      simp [Mark.bytes, Mark.change, Mark.outcome, Piece.isVerified, and_assoc]

/-- A piece that was not verified gets the bytes that its call adds. -/
theorem received_change (mark : Mark) (waits : piece.isVerified = false) :
    piece.received = 0 ∧ ofNat (mark.change piece).received = mark.bytes := by
  obtain ⟨number, state, availability⟩ := piece
  cases state with
  | verified => cases waits
  | _ => cases mark <;> exact ⟨rfl, rfl⟩

theorem kept_modify_iff {pieces : List Piece} (found : pieces[index]? = some piece)
    {change : Piece → Piece} :
    (∀ (other : Nat) (kept : Piece), pieces[other]? = some kept → kept.isVerified = true →
      (pieces.modify index change)[other]? = some kept) ↔
        (piece.isVerified = true → change piece = piece) := by
  constructor
  · intro keeps verified
    have same := keeps index piece found verified
    rw [getElem?_modify_eq, found] at same
    exact Option.some.inj same
  · intro same other kept stands verified
    rcases eq_or_ne index other with rfl | ne
    · cases found.symm.trans stands
      rw [getElem?_modify_eq, found, ← same verified]
      exact congrArg some (congrArg change (same verified))
    · exact (getElem?_modify_ne change pieces ne).trans stands

theorem settles_iff (exact_ : Exact swarm) {call : Nat × Mark} :
    Settles swarm call ↔ Harmless swarm call := by
  obtain ⟨index, mark⟩ := call
  have complete := @all_eq_true _ Piece.isVerified (swarm.mark (index, mark)).pieces
  rw [Settles, Exact, isComplete, and_iff_left complete, mark_bytes, mark_pieces, exact_.1]
  rw [harmless_iff]
  cases found : swarm.pieces[index]? with
  | none =>
    rw [modify_eq_self (List.getElem?_eq_none_iff.mp found), add_eq_left]
    exact and_iff_right fun _ _ stands _ => stands
  | some piece =>
    have sum := received_modify found mark.change
    rw [kept_modify_iff found]
    dsimp only
    cases verified : piece.isVerified with
    | false =>
      obtain ⟨none, gained⟩ := received_change mark verified
      rw [none, Nat.add_zero] at sum
      simp [sum, ofNat_add, gained]
    | true =>
      rw [forall_prop_of_true rfl, forall_prop_of_true rfl]
      refine and_congr_right fun same => ?_
      rw [same, Nat.add_right_cancel_iff] at sum
      rw [sum, add_eq_left]

/-- From a new downloader, no verified piece changes and the counted bytes and the end of the
download are right exactly when each call is harmless. -/
theorem marks_settled_iff (contentHash : ContentHash) (size chunkCount : Nat)
    (calls : List (Nat × Mark)) :
    Guarded SwarmDownloader.mark Settles (.new contentHash size chunkCount) calls ↔
      Guarded SwarmDownloader.mark Harmless (.new contentHash size chunkCount) calls := by
  have start : Exact (.new contentHash size chunkCount) := by
    refine ⟨?_, all_eq_true⟩
    simp [SwarmDownloader.new, Function.comp_def, Piece.received, Piece.payload]
  exact guarded_congr_of SwarmDownloader.mark Exact
    (fun _ call exact_ _ => settles_iff exact_)
    (fun _ call exact_ _ harmless => ((settles_iff exact_).mpr harmless).2) start
    (guarded_true SwarmDownloader.mark _ calls)

/-- A late failure takes the data of a verified piece away. -/
theorem verified_piece_lost :
    ¬ ∀ (contentHash : ContentHash) (size chunkCount : Nat) (calls : List (Nat × Mark)),
      Guarded SwarmDownloader.mark Settles (.new contentHash size chunkCount) calls := by
  intro claim
  obtain ⟨_, ⟨kept, _⟩, _⟩ := claim sampleHash 1 1 [(0, .verified 0 [7]), (0, .failed "late")]
  have state := kept 0 _ rfl rfl
  cases state

end A3Net.Swarm
