import A3Net.Construction.Transport.BlobProto

namespace A3Net.Transport

open Cryptography FetchState FrameCodec UInt64

/-- The stream begins with the frames of these messages. -/
inductive Carries (wire : Wire) : Stream → List Message → Prop where
  | nil (stream : Stream) : Carries wire stream []
  | cons {stream rest : Stream} {frame : Frame} {msg : Message} {messages : List Message}
      (taken : FrameCodec.read stream = .ok (some (frame, rest)))
      (decoded : Message.fromFrame wire frame = .ok msg)
      (later : Carries wire rest messages) : Carries wire stream (msg :: messages)

/-- The replies so far announce a size and deliver bytes. -/
structure Delivery where
  announced : Option UInt64 := none
  bytes : Bytes := []

/-- A chunk counts when it continues the bytes before it. -/
def Delivery.extend (wire : Wire) (delivery : Delivery) : Message → Option Delivery
  | .meta_ sizeBytes _ => some {delivery with announced := some sizeBytes}
  | .chunk _ offset data =>
    match wire.decodeBase64 data with
    | .ok bytes =>
      if offset = ofNat delivery.bytes.length then
        some {delivery with bytes := delivery.bytes ++ bytes}
      else none
    | .error _ => none
  | _ => none

/-- The delivery closes with a digest of its own bytes and with its announced size. -/
def Delivery.Closes (delivery : Delivery) (digest : String) : Prop :=
  digest = toHex (blake3 delivery.bytes).bytes ∧
    ∀ size, delivery.announced = some size → size = ofNat delivery.bytes.length

/-- From this delivery on, the stream delivers the rest and closes with the digest. -/
def Completes (wire : Wire) (start : Delivery) (stream : Stream) (delivery : Delivery)
    (digest : String) : Prop :=
  ∃ body, Carries wire stream (body ++ [.done digest]) ∧
    body.foldlM (Delivery.extend wire) start = some delivery ∧ delivery.Closes digest

/-- The loop state follows the delivery. -/
structure FetchState.Follows (state : FetchState) (delivery : Delivery) : Prop where
  size : state.expectedSize = delivery.announced
  total : state.total = ofNat delivery.bytes.length
  hasher : state.hasher = delivery.bytes
  file : state.file = delivery.bytes

theorem follows_start : FetchState.Follows {} {} := ⟨rfl, rfl, rfl, rfl⟩

variable {wire : Wire} {host : Host} {dest : String} {state after : FetchState}
variable {delivery : Delivery} {msg : Message} {range : RangeSpec}

section

variable (follows : state.Follows delivery)
include follows

theorem FetchState.Follows.chunk (bytes : Bytes) :
    FetchState.Follows
      {state with
        file := state.file ++ bytes
        hasher := state.hasher ++ bytes
        total := state.total + ofNat bytes.length
        writes := state.writes + 1} {delivery with bytes := delivery.bytes ++ bytes} where
  size := follows.size
  total := by
    rw [follows.total, List.length_append, ofNat_add]
  hasher := congrArg (· ++ bytes) follows.hasher
  file := congrArg (· ++ bytes) follows.file

/-- A reply that does not stop the loop extends the delivery. -/
theorem react_next (reacted : state.react wire host range dest msg = .next after) :
    ∃ extended, delivery.extend wire msg = some extended ∧ after.Follows extended := by
  cases msg with
  | meta_ sizeBytes chunkCount =>
    cases reacted
    exact ⟨_, rfl, rfl, follows.total, follows.hasher, follows.file⟩
  | chunk index offset data =>
    simp only [react, chunk] at reacted
    cases decoded : wire.decodeBase64 data with
    | error text => simp [decoded] at reacted
    | ok bytes =>
      simp only [decoded] at reacted
      by_cases order : offset = state.total
      · rw [if_neg (not_not.mpr order)] at reacted
        split at reacted
        · cases reacted
        · cases reacted
          refine ⟨{delivery with bytes := delivery.bytes ++ bytes}, ?_, follows.chunk bytes⟩
          simp only [Delivery.extend, decoded]
          rw [if_pos (order.trans follows.total)]
      · rw [if_pos order] at reacted
        cases reacted
  | _ => cases reacted

/-- Without file errors the loop goes on with every reply that extends the delivery. -/
theorem react_extend {extended : Delivery} (extends_ : delivery.extend wire msg = some extended) :
    ∃ after, state.react wire {} range dest msg = .next after ∧ after.Follows extended := by
  cases msg with
  | meta_ sizeBytes chunkCount =>
    cases extends_
    exact ⟨_, rfl, rfl, follows.total, follows.hasher, follows.file⟩
  | chunk index offset data =>
    simp only [Delivery.extend] at extends_
    cases decoded : wire.decodeBase64 data with
    | error text => simp [decoded] at extends_
    | ok bytes =>
      simp only [decoded] at extends_
      split at extends_
      · next order =>
        cases extends_
        refine ⟨_, ?_, follows.chunk bytes⟩
        simp only [react, chunk, decoded]
        rw [if_neg (not_not.mpr (order.trans follows.total.symm))]
      · cases extends_
  | _ => cases extends_

variable {total : UInt64}

omit follows in
theorem done_finish_ok (ended : (done.finish host dest state).result = .ok total) :
    (done.finish host dest state).file = some state.file := by
  unfold done.finish at ended ⊢
  split at ended
  · cases ended
  · rfl

variable {claimed : String}

/-- A fetch of the whole blob that ends well has closed its delivery. -/
theorem done_ok (ended : (state.done host .all dest claimed).result = .ok total) :
    delivery.Closes claimed ∧ (state.done host .all dest claimed).file = some delivery.bytes := by
  unfold done at ended ⊢
  by_cases equal : toHex (blake3 state.hasher).bytes = claimed
  · rw [if_neg (not_not.mpr equal)] at ended ⊢
    rw [follows.hasher] at equal
    cases announced : state.expectedSize with
    | none =>
      rw [announced] at ended
      refine ⟨⟨equal.symm, fun size said => ?_⟩, follows.file ▸ done_finish_ok ended⟩
      rw [← follows.size, announced] at said
      cases said
    | some size =>
      rw [announced] at ended
      dsimp only at ended ⊢
      by_cases same : size = state.total
      · rw [if_neg (not_not.mpr same)] at ended ⊢
        refine ⟨⟨equal.symm, fun other said => ?_⟩, follows.file ▸ done_finish_ok ended⟩
        rw [← follows.size, announced] at said
        cases said
        exact same.trans follows.total
      · rw [if_pos same] at ended
        cases ended
  · rw [if_pos equal] at ended
    cases ended

/-- Without file errors a closed delivery stays in the file. -/
theorem done_closes (closes : delivery.Closes claimed) :
    state.done {} .all dest claimed = ⟨.ok state.total, some delivery.bytes⟩ := by
  obtain ⟨digest, sizes⟩ := closes
  unfold done
  rw [if_neg (not_not.mpr (follows.hasher ▸ digest.symm)), ← follows.file]
  cases announced : state.expectedSize with
  | none => rfl
  | some size =>
    have same : size = state.total := by
      rw [follows.total]
      exact sizes size (follows.size ▸ announced)
    dsimp only
    rw [if_neg (not_not.mpr same)]
    rfl

end

variable {stream : Stream}
variable {final : Delivery} {digest : String}

/-- The loop reads one frame, decodes it and reacts to its message. -/
theorem receive_frame {frame : Frame} {rest : Stream}
    (taken : read stream = .ok (some (frame, rest)))
    (decoded : Message.fromFrame wire frame = .ok msg) :
    receive wire host range dest state stream =
      match state.react wire host range dest msg with
      | .stop outcome => outcome
      | .next after => receive wire host range dest after rest := by
  rw [receive]
  split
  · next failed => cases taken.symm.trans failed
  · next ended => cases taken.symm.trans ended
  · next otherFrame otherRest found =>
    cases taken.symm.trans found
    rewrite [decoded]
    rfl

variable {total : UInt64}

/-- Only a message that is neither data nor an end with success stops the loop with a result. -/
theorem react_stop_ok (follows : state.Follows delivery) {outcome : Outcome}
    (reacted : state.react wire host .all dest msg = .stop outcome)
    (ended : outcome.result = .ok total) :
    ∃ claimed, msg = .done claimed ∧ delivery.Closes claimed ∧
      outcome.file = some delivery.bytes := by
  cases msg with
  | done claimed =>
    cases reacted
    exact ⟨claimed, rfl, done_ok follows ended⟩
  | chunk index offset data =>
    rw [react] at reacted
    revert reacted
    fun_cases chunk wire host dest state offset data with
    | case4 => rintro ⟨⟩
    | _ =>
      rintro ⟨⟩
      cases ended
  | meta_ sizeBytes chunkCount => cases reacted
  | _ =>
    cases reacted
    cases ended

/-- A loop that ends well has read a message. -/
theorem receive_ok_frame (ended : (receive wire host range dest state stream).result = .ok total) :
    ∃ frame rest msg, read stream = .ok (some (frame, rest)) ∧
      Message.fromFrame wire frame = .ok msg := by
  rw [receive] at ended
  split at ended
  · cases ended
  · cases ended
  · next frame rest found =>
    split at ended
    · cases ended
    · next msg decoded => exact ⟨frame, rest, msg, found, decoded⟩

/-- A fetch that ends well leaves the delivery of its stream in the file. -/
theorem receive_ok (follows : state.Follows delivery)
    (ended : (receive wire host .all dest state stream).result = .ok total) :
    ∃ final digest, Completes wire delivery stream final digest ∧
      (receive wire host .all dest state stream).file = some final.bytes := by
  induction size : stream.bytes.length using Nat.strongRecOn generalizing state stream delivery with
  | ind size ih =>
    obtain ⟨frame, rest, msg, taken, decoded⟩ := receive_ok_frame ended
    rw [receive_frame taken decoded] at ended ⊢
    cases reacted : state.react wire host .all dest msg with
    | stop outcome =>
      rw [reacted] at ended
      obtain ⟨claimed, rfl, closes, file⟩ := react_stop_ok follows reacted ended
      exact ⟨delivery, claimed, ⟨[], .cons taken decoded (.nil rest), rfl, closes⟩, file⟩
    | next after =>
      rw [reacted] at ended
      obtain ⟨extended, extends_, later⟩ := react_next follows reacted
      have shorter := size ▸ read_shorter taken
      obtain ⟨final, digest, ⟨body, carries, gathered, closes⟩, file⟩ :=
        ih rest.bytes.length shorter later ended rfl
      refine ⟨final, digest, ⟨msg :: body, .cons taken decoded carries, ?_, closes⟩, file⟩
      simpa [extends_] using gathered

/-- Without errors of the host every completed delivery ends well. -/
theorem receive_completes (dest : String) (follows : state.Follows delivery)
    (completes : Completes wire delivery stream final digest) :
    ∃ total, receive wire {} .all dest state stream = ⟨.ok total, some final.bytes⟩ := by
  obtain ⟨body, carries, gathered, closes⟩ := completes
  induction body generalizing state stream delivery with
  | nil =>
    cases gathered
    cases carries with
    | cons taken decoded later =>
      rw [receive_frame taken decoded]
      exact ⟨state.total, done_closes follows closes⟩
  | cons msg body ih =>
    cases carries with
    | cons taken decoded later =>
      simp only [List.foldlM_cons, Option.bind_eq_bind, Option.bind_eq_some_iff] at gathered
      obtain ⟨extended, extends_, gathered⟩ := gathered
      obtain ⟨after, reacted, next⟩ := react_extend follows extends_
      rw [receive_frame taken decoded, reacted]
      exact ih next later gathered

/-- A fetch of the whole blob succeeds only with the requested bytes, exactly when every digest
that closes a completed delivery of the stream is the requested hash. -/
theorem fetchBlob_hash_iff (wire : Wire) (dest : String) (old : Option Bytes) (hash : ContentHash)
    (stream : Stream) :
    (∀ host total, (fetchBlobOverTransport wire host .all dest old hash stream).result = .ok total →
      ∃ bytes, (fetchBlobOverTransport wire host .all dest old hash stream).file = some bytes ∧
        ContentHash.fromBytes bytes = hash) ↔
      ∀ req, (Message.get hash.asHex .all).intoFrame wire = .ok req →
        ∀ final digest, Completes wire {} stream final digest → digest = hash.asHex := by
  constructor
  · intro honest req encodes final digest completes
    obtain ⟨total, ended⟩ := receive_completes dest follows_start completes
    have fetched : fetchBlobOverTransport wire {} .all dest old hash stream =
        ⟨.ok total, some final.bytes⟩ := by
      rw [fetchBlobOverTransport, encodes]
      exact ended
    obtain ⟨bytes, file, equal⟩ := honest {} total (congrArg Outcome.result fetched)
    rw [fetched] at file
    cases file
    obtain ⟨_, _, _, closed, _⟩ := completes
    rw [closed, ← equal]
    rfl
  · intro named host total
    fun_cases fetchBlobOverTransport wire host .all dest old hash stream with
    | case4 req encodes =>
      intro ended
      obtain ⟨final, digest, completes, file⟩ := receive_ok follows_start ended
      have equal := named req encodes final digest completes
      obtain ⟨_, _, _, closed, _⟩ := completes
      refine ⟨final.bytes, file, ?_⟩
      rw [ContentHash.fromBytes, ← closed, equal]
      rfl
    | _ => rintro ⟨⟩

/-- This is the hash of no bytes. -/
def emptyDigest : String := "af1349b9f5f9a1a6a0404dea36dcc9499bcb25c9adc112b7cc9a93cae41f3262"

/-- The reply ends the transfer at once. -/
def emptyReply : Bytes :=
  utf8 "\x7b\"cmd\":\"Done\",\"blake3\":\"af1349b9f5f9a1a6a0404dea36dcc9499bcb25c9adc112b7cc9a93cae41f3262\"\x7d"

/-- The wire reads this one reply. -/
def emptyWire : Wire where
  fromSlice bytes := if bytes = emptyReply then .ok (.done emptyDigest) else .error "unknown"
  toVec _ := .ok []
  decodeBase64 _ := .ok []
  debug _ := ""

/-- The peer closes the transfer with the hash of no bytes, and the fetch of `a3net` succeeds. -/
theorem fetchBlob_forged :
    ¬ ∀ (wire : Wire) (host : Host) (dest : String) (old : Option Bytes) (hash : ContentHash)
      (stream : Stream) (total : UInt64),
      (fetchBlobOverTransport wire host .all dest old hash stream).result = .ok total →
        ∃ bytes, (fetchBlobOverTransport wire host .all dest old hash stream).file = some bytes ∧
          ContentHash.fromBytes bytes = hash := by
  intro claim
  have completes : Completes emptyWire {} ⟨encode ⟨emptyReply⟩, none⟩ {} emptyDigest := by
    have taken : read ⟨encode ⟨emptyReply⟩, none⟩ = .ok (some (⟨emptyReply⟩, ⟨[], none⟩)) := by
      decide +kernel
    have digest : emptyDigest = toHex (blake3 []).bytes := by decide +kernel
    have decoded : Message.fromFrame emptyWire ⟨emptyReply⟩ = .ok (.done emptyDigest) := by
      simp [Message.fromFrame, emptyWire]
    exact ⟨[], .cons taken decoded (.nil _), rfl, digest, fun size announced => by cases announced⟩
  obtain ⟨total, ended⟩ := receive_completes "blob" follows_start completes
  obtain ⟨bytes, file, equal⟩ := claim emptyWire {} "blob" none sampleHash _ total
    (congrArg Outcome.result ended)
  have empty : bytes = [] := by
    cases file.symm.trans (congrArg Outcome.file ended)
    rfl
  subst empty
  revert equal
  decide +kernel

end A3Net.Transport
