import A3Net.Construction.Mesh.Client

namespace A3Net.Mesh

open Cryptography Machine Nat ContentHash

/-- The peer announces several chunks and answers for all of them with these parts. -/
def Chunked (network : Network) (attempt : Nat) (hash : ContentHash) (base : String)
    (parts : List Bytes) : Prop :=
  ∃ meta_, getMeta network attempt hash base = .ok meta_ ∧ 1 < chunkCount meta_ ∧
    (List.range (chunkCount meta_)).mapM (getChunk network attempt hash base) = .ok parts

variable {network : Network} {disk : Disk} {attempt : Nat} {hash : ContentHash} {base : String}
variable {old : Option Bytes} {total : UInt64}

variable {parts : List Bytes} {index : Nat}

theorem writeChunks_ok {file : Bytes} {written : UInt64}
    (ended : (writeChunks disk attempt file written index parts).result = .ok total) :
    (writeChunks disk attempt file written index parts).file = some (file ++ parts.flatten) := by
  induction parts generalizing file written index with
  | nil => simp [writeChunks]
  | cons chunk rest ih =>
    unfold writeChunks at ended ⊢
    split at ended
    · cases ended
    · simpa using ih ended

/-- Without disk errors every chunk reaches the file. -/
theorem writeChunks_healthy (file : Bytes) (written : UInt64) (index : Nat)
    (healthy : ∀ part, disk.writeAll attempt part = none) :
    ∃ total, writeChunks disk attempt file written index parts =
      ⟨.ok total, some (file ++ parts.flatten)⟩ := by
  induction parts generalizing file written index with
  | nil => exact ⟨written, by simp [writeChunks]⟩
  | cons chunk rest ih =>
    obtain ⟨total, ended⟩ := ih (file ++ chunk) (written + UInt64.ofNat chunk.length) (index + 1)
    refine ⟨total, ?_⟩
    simpa [writeChunks, healthy] using ended

/-- A whole blob stays in the file only under its own hash. -/
theorem fetchWhole_ok (ended : (fetchWhole network disk attempt hash old base).result = .ok total) :
    ∃ bytes, (fetchWhole network disk attempt hash old base).file = some bytes ∧
      fromBytes bytes = hash := by
  revert ended
  fun_cases fetchWhole network disk attempt hash old base with
  | case5 bytes _ _ _ _ equal => exact fun _ => ⟨bytes, rfl, not_not.mp equal⟩
  | _ => rintro ⟨⟩

/-- The parallel path leaves the answered parts in the file, whatever their hash is. -/
theorem fetchChunksParallel_ok {count : Nat}
    (ended : (fetchChunksParallel network disk attempt hash old base count).result = .ok total) :
    ∃ parts, (List.range count).mapM (getChunk network attempt hash base) = .ok parts ∧
      (fetchChunksParallel network disk attempt hash old base count).file = some parts.flatten := by
  revert ended
  fun_cases fetchChunksParallel network disk attempt hash old base count with
  | case4 parts answered => exact fun ended => ⟨parts, answered, writeChunks_ok ended⟩
  | _ => rintro ⟨⟩

theorem fetchFromOne_ok
    (ended : (fetchFromOne network disk attempt hash old base .all).result = .ok total) :
    ∃ bytes, (fetchFromOne network disk attempt hash old base .all).file = some bytes ∧
      (fromBytes bytes = hash ∨
        ∃ parts, Chunked network attempt hash base parts ∧ parts.flatten = bytes) := by
  unfold fetchFromOne at ended ⊢
  split at ended
  · cases ended
  next meta_ answered =>
    dsimp only at ended ⊢
    split at ended
    next several =>
      obtain ⟨parts, answers, file⟩ := fetchChunksParallel_ok ended
      rw [if_pos several]
      exact ⟨parts.flatten, file, .inr ⟨parts, ⟨meta_, answered, several, answers⟩, rfl⟩⟩
    next single =>
      obtain ⟨bytes, file, equal⟩ := fetchWhole_ok ended
      rw [if_neg single]
      exact ⟨bytes, file, .inl equal⟩

/-- Without disk errors the parts of a chunked answer become the file. -/
theorem fetchFromOne_chunked (dir : disk.createDirAll attempt = none)
    (create : disk.create attempt = none) (healthy : ∀ part, disk.writeAll attempt part = none)
    (chunked : Chunked network attempt hash base parts) :
    ∃ total, fetchFromOne network disk attempt hash old base .all =
      ⟨.ok total, some parts.flatten⟩ := by
  obtain ⟨meta_, answered, several, answers⟩ := chunked
  obtain ⟨total, ended⟩ := writeChunks_healthy [] 0 0 healthy
  refine ⟨total, ?_⟩
  simp only [fetchFromOne, answered, several, if_true, fetchChunksParallel, answers, dir, create]
  exact ended

/-- An attempt without a directory for the file fails. -/
theorem fetchFromOne_full (text : String) (old : Option Bytes)
    (full : disk.createDirAll attempt = some text) :
    ∃ error file, fetchFromOne network disk attempt hash old base .all = ⟨.error error, file⟩ := by
  unfold fetchFromOne
  split
  · exact ⟨_, _, rfl⟩
  dsimp only
  split
  · unfold fetchChunksParallel
    split
    · exact ⟨_, _, rfl⟩
    · rw [full]
      exact ⟨_, _, rfl⟩
  · unfold fetchWhole
    split
    · exact ⟨_, _, rfl⟩
    · rw [full]
      exact ⟨_, _, rfl⟩

variable {fetched : MeshFetchResult} {peerBases : List String} {lastErr : String}

/-- A fetch that succeeds has the result of one of its peers. -/
theorem tryPeers_ok {file : Option Bytes}
    (ended : tryPeers network disk hash .all old lastErr attempt peerBases = (.ok fetched, file)) :
    ∃ index base before, peerBases[index]? = some base ∧
      fetchFromOne network disk (attempt + index) hash before base .all =
        ⟨.ok fetched.bytes, file⟩ := by
  induction peerBases generalizing old lastErr attempt with
  | nil => cases ended
  | cons base rest ih =>
    unfold tryPeers at ended
    split at ended
    next bytes left answered =>
      cases ended
      exact ⟨0, base, old, rfl, answered⟩
    next error left answered =>
      obtain ⟨index, other, before, stands, answered⟩ := ih ended
      refine ⟨index + 1, other, before, stands, ?_⟩
      rw [← answered, add_right_comm, add_assoc]

/-- When the attempts before one peer fail, its success is the result. -/
theorem tryPeers_reaches {bytes : Bytes} (stands : peerBases[index]? = some base)
    (earlier : ∀ before, before < index → ∀ old base, ∃ error file,
      fetchFromOne network disk (attempt + before) hash old base .all = ⟨.error error, file⟩)
    (succeeds : ∀ old, ∃ total, fetchFromOne network disk (attempt + index) hash old base .all =
      ⟨.ok total, some bytes⟩) :
    ∃ total, tryPeers network disk hash .all old lastErr attempt peerBases =
      (.ok ⟨total, base⟩, some bytes) := by
  induction index generalizing old lastErr attempt peerBases with
  | zero =>
    cases peerBases with
    | nil => cases stands
    | cons first rest =>
      cases stands
      obtain ⟨total, ended⟩ := succeeds old
      refine ⟨total, ?_⟩
      rw [add_zero] at ended
      rw [tryPeers, ended]
  | succ index ih =>
    cases peerBases with
    | nil => cases stands
    | cons first rest =>
      obtain ⟨error, file, failed⟩ := earlier 0 (succ_pos index) old first
      rw [add_zero] at failed
      rw [tryPeers, failed]
      apply ih stands
      · intro before inside old base
        rw [add_assoc, add_comm 1 before]
        exact earlier (before + 1) (by omega) old base
      · intro old
        rw [add_assoc, add_comm 1 index]
        exact succeeds old

/-- The disk can refuse the attempts before a peer, so a chunked answer of any peer can be the
result. -/
theorem fetchFromMesh_chunked (stands : peerBases[attempt]? = some base)
    (chunked : Chunked network attempt hash base parts) :
    ∃ disk total, fetchFromMesh network disk hash none .all old peerBases =
      (.ok ⟨total, base⟩, some parts.flatten) := by
  let disk : Disk := {createDirAll := fun index => if index < attempt then some "full" else none}
  have reached : ∃ total, tryPeers network disk hash .all old "" 0 peerBases =
      (.ok ⟨total, base⟩, some parts.flatten) := by
    apply tryPeers_reaches stands
    · intro before inside old base
      apply fetchFromOne_full "full" old
      simp [disk, inside]
    · intro old
      rw [zero_add]
      exact fetchFromOne_chunked (by simp [disk]) rfl (fun _ => rfl) chunked
  obtain ⟨total, ended⟩ := reached
  have present : peerBases.isEmpty = false := by
    cases peerBases with
    | nil => cases stands
    | cons _ _ => rfl
  refine ⟨disk, total, ?_⟩
  simp only [fetchFromMesh, present, Bool.false_eq_true, if_false]
  exact ended

/-- A whole blob is fetched only with the requested bytes, exactly when every peer that answers for
several chunks answers with the parts of the requested blob. -/
theorem fetchFromMesh_hash_iff (network : Network) (hash : ContentHash) (old : Option Bytes)
    (peerBases : List String) :
    (∀ disk build fetched file,
      fetchFromMesh network disk hash build .all old peerBases = (.ok fetched, file) →
        ∃ bytes, file = some bytes ∧ fromBytes bytes = hash) ↔
      ∀ attempt base parts, peerBases[attempt]? = some base →
        Chunked network attempt hash base parts → fromBytes parts.flatten = hash := by
  constructor
  · intro honest attempt base parts stands chunked
    obtain ⟨disk, total, fetched⟩ := fetchFromMesh_chunked stands chunked
    obtain ⟨bytes, file, equal⟩ := honest disk none _ _ fetched
    cases file
    exact equal
  · intro parts disk build fetched file ended
    unfold fetchFromMesh at ended
    split at ended
    · cases ended
    split at ended
    · cases ended
    obtain ⟨index, base, before, stands, answered⟩ := tryPeers_ok ended
    rw [zero_add] at answered
    obtain ⟨bytes, left, source⟩ := fetchFromOne_ok (congrArg Outcome.result answered)
    rw [answered] at left
    rcases source with equal | ⟨chunks, chunked, joined⟩
    · exact ⟨bytes, left, equal⟩
    · exact ⟨bytes, left, joined ▸ parts index base chunks stands chunked⟩

/-- The peer announces two chunks. -/
def twoChunks : Bytes := utf8 "\x7b\"chunkCount\":2\x7d"

/-- The peer sends the announcement and then no bytes for any chunk. -/
def emptyNetwork : Network where
  send _ req :=
    .ok {
      status := 200
      body := .ok (if req.url = blobUrl sampleHash "http://mallory" ++ "/meta" then twoChunks
        else [])}
  statusError _ := ""
  parseJson bytes :=
    if bytes = twoChunks then .ok (.object [("chunkCount", .number (.unsigned 2))])
    else .error "unknown"

/-- Two empty chunks pass for the blob `a3net`. -/
theorem fetchFromMesh_forged :
    ¬ ∀ (network : Network) (disk : Disk) (hash : ContentHash) (build : Option String)
      (old : Option Bytes) (peerBases : List String) (fetched : MeshFetchResult)
      (file : Option Bytes),
      fetchFromMesh network disk hash build .all old peerBases = (.ok fetched, file) →
        ∃ bytes, file = some bytes ∧ fromBytes bytes = hash := by
  intro claim
  have announced : getMeta emptyNetwork 0 sampleHash "http://mallory" =
      .ok (.object [("chunkCount", .number (.unsigned 2))]) := by
    simp [getMeta, getBytes, emptyNetwork]
  have answers : (List.range 2).mapM (getChunk emptyNetwork 0 sampleHash "http://mallory") =
      .ok [[], []] := by
    decide +kernel
  have stands : ["http://mallory"][0]? = some "http://mallory" := rfl
  obtain ⟨disk, total, fetched⟩ := fetchFromMesh_chunked stands ⟨_, announced, by decide, answers⟩
  obtain ⟨bytes, file, equal⟩ := claim emptyNetwork disk sampleHash none none _ _ _ fetched
  cases file
  revert equal
  decide +kernel

end A3Net.Mesh
