import A3Net.Proof.Blobstore.SwarmPieces

namespace A3Net.Swarm

open List

variable {fetch : ChunkFetcher} {order : List String} {peers : List (String × Finset Nat)}
variable {size chunkCount : Nat}

variable (clock : Nat → Nat) (contentHash : ContentHash)

/-- The attempts keep the shape, and each of them keeps the download faithful. -/
theorem attempts_faithful (left attempt : Nat) {swarm finished : SwarmDownloader}
    (shape : Shape size chunkCount swarm) (faithful : Faithful fetch order peers swarm)
    (ended : attempts fetch order clock left attempt swarm = .ok finished) :
    Shape size chunkCount finished ∧ Faithful fetch order peers finished := by
  fun_induction attempts fetch order clock left attempt swarm with
  | case1 | case3 | case4 =>
    cases ended
    exact ⟨shape, faithful⟩
  | case2 => cases ended
  | case5 _ _ _ _ _ _ _ _ _ ih => exact ih shape faithful ended
  | case6 _ _ swarm _ _ _ index selected _ peer chosen ih =>
    have asked := selectNextPiece_open selected
    refine ih ((shape.markDownloading _ index peer).settle _ index peer _) ?_ ended
    refine (faithful.markDownloading asked _ peer).settle (asked.markDownloading _ peer) _ peer ?_
    exact (faithful.held chosen).imp_left fun lost =>
      lost.of_open asked (markDownloading_frame swarm _ index peer)
  | case7 _ _ _ _ _ _ index selected _ _ ih =>
    have lost := markFailed_lost (selectNextPiece_open selected) "No peer available"
    exact ih (shape.markFailed index _) (.inl lost) ended

/-- The first attempt finds a faithful download. -/
theorem registerPeers_faithful :
    Faithful fetch order peers (registerPeers (.new contentHash size chunkCount) 0 peers) := by
  obtain ⟨_, untouched, unharmed⟩ := registerPeers_start contentHash size chunkCount peers
  refine .inr ⟨unharmed, fun index piece found data present => ?_⟩
  have pending := untouched piece (mem_of_getElem? found)
  simp [Piece.payload, pending] at present

variable {bytes : Bytes}

/-- A sequential download returns only what the holders answered. -/
theorem download_served
    (returned : download fetch order clock contentHash size chunkCount peers = some (.ok bytes)) :
    size ≤ capacityLimit ∧ ∃ chunks, Served fetch order peers chunkCount chunks ∧
      chunks.flatten = bytes := by
  unfold download at returned
  dsimp only at returned
  split at returned
  · cases returned
  next finished ended =>
    obtain ⟨start, _⟩ := registerPeers_start contentHash size chunkCount peers
    obtain ⟨shape, faithful⟩ :=
      attempts_faithful clock _ 0 start (registerPeers_faithful contentHash) ended
    exact reassemble_served shape (faithful.imp_right And.right) returned

/-- The first pieces hold their chunks, and the others still wait. -/
structure Progress (peers : List (String × Finset Nat)) (size chunkCount : Nat)
    (chunks : List Bytes) (done : Nat) (swarm : SwarmDownloader) : Prop where
  shape : Shape size chunkCount swarm
  unharmed : Unharmed peers swarm
  bound : done ≤ chunkCount
  held : ∀ (index : Nat) (piece : Piece), swarm.pieces[index]? = some piece → index < done →
    piece.payload = chunks[index]?
  waits : ∀ (index : Nat) (piece : Piece), swarm.pieces[index]? = some piece → done ≤ index →
    piece.state = .pending

variable {chunks : List Bytes} {done : Nat} {swarm : SwarmDownloader} {index : Nat}

theorem Served.chunk (served : Served fetch order peers chunkCount chunks)
    (inside : index < chunkCount) :
    ∃ data peer, chunks[index]? = some data ∧ holder order peers index = some peer ∧
      fetch peer index = .ok data := by
  have equal := congrArg (fun list : List (Option Bytes) => list[index]?) served
  simp only [getElem?_map, getElem?_range inside, Option.map_some] at equal
  cases stands : chunks[index]? with
  | none => simp [stands] at equal
  | some data =>
    rw [stands, Option.map_some, Option.some.injEq] at equal
    obtain ⟨peer, chosen, answered⟩ := Option.bind_eq_some_iff.mp equal
    refine ⟨data, peer, rfl, chosen, ?_⟩
    split at answered
    · next result =>
      cases answered
      exact result
    · cases answered

theorem Served.length (served : Served fetch order peers chunkCount chunks) :
    chunks.length = chunkCount := by
  have equal := congrArg List.length served
  simpa using equal.symm

section

variable (progress : Progress peers size chunkCount chunks done swarm)
include progress

/-- The next pending piece is the first one without its chunk. -/
theorem Progress.selectNextPiece (served : Served fetch order peers chunkCount chunks)
    (inside : done < chunkCount) : swarm.selectNextPiece .strictPriority = some done := by
  unfold SwarmDownloader.selectNextPiece
  rw [progress.shape.count, find?_range_eq_some]
  have stands := getElem?_eq_getElem (progress.shape.pieces.symm ▸ inside)
  refine ⟨?_, mem_range.mpr inside, fun earlier before => ?_⟩
  · simp [stands, Piece.isPending, progress.waits done _ stands le_rfl]
  · have within : earlier < swarm.pieces.length := by
      rw [progress.shape.pieces]
      omega
    have found := getElem?_eq_getElem within
    obtain ⟨data, _, chunk, _⟩ := served.chunk (before.trans inside)
    have payload := (progress.held earlier _ found before).trans chunk
    rw [found, Option.any_some]
    generalize swarm.pieces[earlier] = piece at payload
    obtain ⟨number, state, availability⟩ := piece
    cases state <;> first | rfl | cases payload

theorem Progress.isComplete_false (inside : done < chunkCount) : swarm.isComplete = false := by
  have stands := getElem?_eq_getElem (progress.shape.pieces.symm ▸ inside)
  apply all_eq_false.mpr
  refine ⟨_, mem_of_getElem? stands, ?_⟩
  simp [Piece.isVerified, progress.waits done _ stands le_rfl]

theorem Progress.isPieceFailed_false (inside : done < chunkCount) :
    swarm.isPieceFailed done = false := by
  have stands := getElem?_eq_getElem (progress.shape.pieces.symm ▸ inside)
  simp [SwarmDownloader.isPieceFailed, stands, Piece.isFailed, progress.waits done _ stands le_rfl]

/-- The answer of the holder brings the download one piece further. -/
theorem Progress.settle (inside : done < chunkCount) (now : Nat) (peer : String) {data : Bytes}
    (chunk : chunks[done]? = some data) :
    Progress peers size chunkCount chunks (done + 1)
      (Swarm.settle (swarm.markDownloading now done peer) now done peer (.ok data)) where
  shape := (progress.shape.markDownloading now done peer).settle now done peer _
  unharmed := progress.unharmed
  bound := inside
  held := by
    intro index piece found before
    rw [settle_getElem?] at found
    split at found
    · next same =>
      subst same
      obtain ⟨earlier, _, rfl⟩ := Option.map_eq_some_iff.mp found
      exact chunk.symm
    · next ne =>
      rw [markDownloading_frame _ _ _ _ _ ne] at found
      exact progress.held index piece found (by omega)
  waits := by
    intro index piece found after
    have ne : done ≠ index := by omega
    rw [settle_frame _ _ _ _ _ _ ne, markDownloading_frame _ _ _ _ _ ne] at found
    exact progress.waits index piece found (by omega)

end

section

variable (progress : Progress peers size chunkCount chunks chunkCount swarm)
  (served : Served fetch order peers chunkCount chunks)
include progress served

theorem Progress.complete : swarm.pieces.map Piece.payload = chunks.map some := by
  rw [← served]
  apply ext_getElem?
  intro index
  by_cases inside : index < chunkCount
  · have stands := getElem?_eq_getElem (progress.shape.pieces.symm ▸ inside)
    obtain ⟨data, peer, chunk, chosen, answered⟩ := served.chunk inside
    have payload := (progress.held index _ stands inside).trans chunk
    simp [stands, payload, inside, answer, chosen, answered]
  · have outside : swarm.pieces.length ≤ index :=
      progress.shape.pieces.symm ▸ Nat.le_of_not_lt inside
    simp [inside, outside]

theorem Progress.isComplete : swarm.isComplete = true := by
  apply all_eq_true.mpr
  intro piece member
  obtain ⟨data, _, present⟩ : ∃ data ∈ chunks, some data = piece.payload := by
    have inside := mem_map_of_mem (f := Piece.payload) member
    rwa [progress.complete served, mem_map] at inside
  obtain ⟨number, state, availability⟩ := piece
  cases state with
  | verified data receivedAt => rfl
  | _ => cases present

end

section

variable {clock} (timely : ∀ attempt, clock attempt < healthyWindow)
include timely

/-- When every holder answers in time, the attempts reach the last piece. -/
theorem attempts_complete (served : Served fetch order peers chunkCount chunks)
    (left attempt : Nat) (enough : chunkCount ≤ done + left)
    (progress : Progress peers size chunkCount chunks done swarm) :
    ∃ finished, attempts fetch order clock left attempt swarm = .ok finished ∧
      Progress peers size chunkCount chunks chunkCount finished := by
  induction left generalizing attempt done swarm with
  | zero =>
    have last : done = chunkCount := le_antisymm progress.bound enough
    subst last
    exact ⟨swarm, rfl, progress⟩
  | succ left ih =>
    have inTime : ¬ downloadTimeout < clock attempt := Nat.lt_asymm (timely attempt)
    unfold attempts
    dsimp only
    rw [if_neg inTime]
    rcases progress.bound.lt_or_eq with inside | rfl
    · obtain ⟨data, peer, chunk, chosen, answered⟩ := served.chunk inside
      have asked : swarm.getPeerForPiece order (clock attempt) done = some peer := by
        rw [getPeerForPiece_eq_holder order peers progress.unharmed,
          if_pos (timely attempt), chosen]
      rw [if_neg (by simp [progress.isComplete_false inside]),
        progress.selectNextPiece served inside]
      dsimp only
      rw [if_neg (by simp [progress.isPieceFailed_false inside]), asked]
      dsimp only
      rw [answered]
      exact ih (attempt + 1) (by omega) (progress.settle inside _ peer chunk)
    · rw [if_pos (progress.isComplete served)]
      exact ⟨swarm, rfl, progress⟩

/-- A sequential download returns the chunks when every holder answers in time. -/
theorem download_complete {contentHash : ContentHash} (small : size ≤ capacityLimit)
    (served : Served fetch order peers chunkCount chunks) :
    download fetch order clock contentHash size chunkCount peers = some (.ok chunks.flatten) := by
  obtain ⟨shape, untouched, unharmed⟩ := registerPeers_start contentHash size chunkCount peers
  have start : Progress peers size chunkCount chunks 0
      (registerPeers (.new contentHash size chunkCount) 0 peers) := by
    refine ⟨shape, unharmed, Nat.zero_le _, fun _ _ _ before => absurd before (Nat.not_lt_zero _), ?_⟩
    exact fun index piece found _ => untouched piece (mem_of_getElem? found)
  obtain ⟨finished, ended, progress⟩ :=
    attempts_complete timely served (chunkCount * 3) 0 (by omega) start
  have payloads := progress.complete served
  have verified : finished.getVerifiedData.map Prod.snd = chunks := by
    rw [getVerifiedData_payload]
    have joined := congrArg (List.filterMap id) payloads
    simpa [filterMap_map] using joined
  have length : finished.getVerifiedData.length = chunkCount := by
    rw [← served.length, ← verified, length_map]
  unfold download
  dsimp only
  rw [ended]
  unfold SwarmDownloader.reassemble
  dsimp only
  rw [progress.shape.count, progress.shape.size, if_neg (not_not.mpr length),
    if_neg (Nat.not_lt.mpr small), flatMap_def, verified]

end

/-- These pieces are in the queue or belong to a task that has not sent its result. -/
def ParallelState.owned (state : ParallelState) : List Nat :=
  state.queue ++ state.spawned.map Task.index ++ state.running.map Task.index

/-- Each owned piece has one owner and can still be asked for, and each task asks the holder. -/
structure Sane (fetch : ChunkFetcher) (order : List String) (peers : List (String × Finset Nat))
    (size chunkCount : Nat) (state : ParallelState) : Prop where
  shape : Shape size chunkCount state.downloader
  faithful : Faithful fetch order peers state.downloader
  distinct : state.owned.Nodup
  asked : ∀ index ∈ state.owned, Open state.downloader index
  held : ∀ task ∈ state.spawned ++ state.running,
    Lost state.downloader ∨ holder order peers task.index = some task.peer
  returned : ∀ bytes, state.phase = .returned (some (.ok bytes)) →
    size ≤ capacityLimit ∧ ∃ chunks, Served fetch order peers chunkCount chunks ∧
      chunks.flatten = bytes

variable {maxConcurrent : Nat} {state next : ParallelState}

theorem Open.of_frame {swarm after : SwarmDownloader} {other : Nat} (asked : Open swarm other)
    (ne : index ≠ other)
    (frame : ∀ other, index ≠ other → after.pieces[other]? = swarm.pieces[other]?) :
    Open after other := by
  obtain ⟨piece, stands, fine⟩ := asked
  exact ⟨piece, (frame other ne).trans stands, fine⟩

section

variable (sane : Sane fetch order peers size chunkCount state)
include sane

/-- When a piece leaves its owner, the others can still be asked for. -/
theorem Sane.leave {rest : List Nat} (owned : state.owned.Perm (index :: rest)) :
    Open state.downloader index ∧ rest.Nodup ∧
      ∀ other ∈ rest, index ≠ other ∧ Open state.downloader other := by
  have distinct := nodup_cons.mp (owned.nodup_iff.mp sane.distinct)
  refine ⟨sane.asked index (owned.mem_iff.mpr mem_cons_self), distinct.2, ?_⟩
  intro other member
  constructor
  · rintro rfl
    exact distinct.1 member
  · exact sane.asked other (owned.mem_iff.mpr (mem_cons_of_mem _ member))

variable (now : Nat)

theorem Sane.spawn (taken : state.spawn order maxConcurrent now = some next) :
    Sane fetch order peers size chunkCount next := by
  unfold ParallelState.spawn at taken
  split at taken
  · cases taken
    exact {sane with returned := fun bytes returned => by cases returned}
  next index rest spawning queue =>
    have owned : state.owned =
        index :: (rest ++ state.spawned.map Task.index ++ state.running.map Task.index) := by
      simp [ParallelState.owned, queue]
    obtain ⟨asked, distinct, others⟩ := sane.leave (List.Perm.of_eq owned)
    split at taken
    · cases taken
      exact {sane with
        distinct := distinct
        asked := fun other member => (others other member).2}
    split at taken
    · split at taken
      · cases taken
        have lost := markFailed_lost asked "No peer available"
        exact {
          shape := sane.shape.markFailed index _
          faithful := .inl lost
          distinct := distinct
          asked := fun other member => (others other member).2.of_frame (others other member).1
            fun _ ne => (modifyPiece_getElem? ..).trans (if_neg ne)
          held := fun task member => .inl lost
          returned := sane.returned}
      next peer chosen =>
        cases taken
        have moved : (rest ++ (state.spawned ++ [(⟨index, peer⟩ : Task)]).map Task.index ++
            state.running.map Task.index).Perm state.owned := by
          rw [owned, map_append, map_singleton, ← append_assoc, append_assoc _ [_]]
          exact perm_middle
        refine {sane with
          distinct := moved.nodup_iff.mpr sane.distinct
          asked := fun other member => sane.asked other (moved.mem_iff.mp member)
          held := fun task member => ?_}
        by_cases old : task ∈ state.spawned ++ state.running
        · exact sane.held task old
        · have same : task = ⟨index, peer⟩ := by
            simp only [mem_append, mem_singleton] at member old
            tauto
          subst same
          exact sane.faithful.held chosen
    · cases taken
  · cases taken

theorem Sane.start (task : Task) (taken : state.start now task = some next) :
    Sane fetch order peers size chunkCount next := by
  unfold ParallelState.start at taken
  split at taken
  next member =>
    have owned : state.owned.Perm (task.index :: (state.queue ++
        (state.spawned.erase task).map Task.index ++ state.running.map Task.index)) := by
      refine ((((perm_cons_erase member).map Task.index).append_left state.queue).append_right _).trans ?_
      exact (perm_middle.append_right _)
    obtain ⟨asked, distinct, others⟩ := sane.leave owned
    split at taken
    · cases taken
      exact {sane with
        distinct := distinct
        asked := fun other inside => (others other inside).2
        held := fun other inside => sane.held other
          (mem_append.mpr ((mem_append.mp inside).imp_left mem_of_mem_erase))}
    · cases taken
      have frame := markDownloading_frame state.downloader now task.index task.peer
      have moved : (state.queue ++ (state.spawned.erase task).map Task.index ++
          (state.running ++ [task]).map Task.index).Perm state.owned := by
        refine List.Perm.trans ?_ owned.symm
        rw [map_append, map_singleton, ← append_assoc]
        exact perm_append_singleton _ _
      exact {
        shape := sane.shape.markDownloading now task.index task.peer
        faithful := sane.faithful.markDownloading asked now task.peer
        distinct := moved.nodup_iff.mpr sane.distinct
        asked := fun other inside => by
          by_cases same : task.index = other
          · subst same
            exact asked.markDownloading now task.peer
          · exact (sane.asked other (moved.mem_iff.mp inside)).of_frame same frame
        held := fun other inside => by
          have before : other ∈ state.spawned ++ state.running := by
            simp only [mem_append, mem_singleton] at inside ⊢
            rcases inside with spawned | running | rfl
            · exact .inl (mem_of_mem_erase spawned)
            · exact .inr running
            · exact .inl member
          exact (sane.held other before).imp_left fun lost => lost.of_open asked frame
        returned := sane.returned}
  · cases taken

theorem Sane.finish (task : Task) (taken : state.finish fetch now task = some next) :
    Sane fetch order peers size chunkCount next := by
  unfold ParallelState.finish at taken
  split at taken
  next member =>
    cases taken
    have owned : state.owned.Perm (task.index :: (state.queue ++ state.spawned.map Task.index ++
        (state.running.erase task).map Task.index)) :=
      (((perm_cons_erase member).map Task.index).append_left _).trans perm_middle
    obtain ⟨asked, distinct, others⟩ := sane.leave owned
    have frame := settle_frame state.downloader now task.index task.peer (fetch task.peer task.index)
    exact {
      shape := sane.shape.settle now task.index task.peer _
      faithful := sane.faithful.settle asked now task.peer
        (sane.held task (mem_append_right _ member))
      distinct := distinct
      asked := fun other inside => (others other inside).2.of_frame (others other inside).1 frame
      held := fun other inside => by
        have before := mem_append.mpr ((mem_append.mp inside).imp_right mem_of_mem_erase)
        exact (sane.held other before).imp_left fun lost => lost.of_open asked frame
      returned := sane.returned}
  · cases taken

theorem Sane.receive (taken : state.receive = some next) :
    Sane fetch order peers size chunkCount next := by
  revert taken
  fun_cases ParallelState.receive state with
  | case1 =>
    rintro ⟨⟩
    exact {sane with returned := fun bytes returned => by cases returned}
  | case3 =>
    rintro ⟨⟩
    split <;> exact {sane with returned := fun bytes returned => by cases returned}
  | _ => rintro ⟨⟩

theorem Sane.tick (waited : Nat) (taken : state.tick waited = some next) :
    Sane fetch order peers size chunkCount next := by
  unfold ParallelState.tick at taken
  split at taken
  · cases taken
    split
    · exact {sane with returned := fun bytes returned => by cases returned}
    · exact sane
  · cases taken

theorem Sane.collect (taken : state.collect = some next) :
    Sane fetch order peers size chunkCount next := by
  unfold ParallelState.collect at taken
  split at taken
  · cases taken
    refine {sane with returned := fun bytes returned => ?_}
    simp only [Phase.returned.injEq] at returned
    exact reassemble_served sane.shape (sane.faithful.imp_right And.right) returned
  · cases taken

/-- Every enabled action keeps the parallel download sane. -/
theorem Sane.step (action : ParallelAction)
    (taken : state.step fetch order maxConcurrent action = some next) :
    Sane fetch order peers size chunkCount next := by
  cases action with
  | spawn now => exact sane.spawn now taken
  | start now task => exact sane.start now task taken
  | finish now task => exact sane.finish now task taken
  | receive => exact sane.receive taken
  | tick waited => exact sane.tick waited taken
  | collect => exact sane.collect taken

theorem Sane.schedule (actions : List ParallelAction)
    (taken : state.schedule fetch order maxConcurrent actions = some next) :
    Sane fetch order peers size chunkCount next := by
  induction actions generalizing state with
  | nil =>
    cases taken
    exact sane
  | cons action rest ih =>
    simp only [ParallelState.schedule, foldlM_cons, Option.bind_eq_bind,
      Option.bind_eq_some_iff] at taken
    obtain ⟨middle, first, later⟩ := taken
    exact ih (sane.step action first) later

end

theorem parallelStart_sane {shuffled : List Nat} (permuted : shuffled.Perm (List.range chunkCount))
    (started : parallelStart contentHash size chunkCount peers shuffled = some state) :
    Sane fetch order peers size chunkCount state := by
  obtain ⟨shape, untouched, _⟩ := registerPeers_start contentHash size chunkCount peers
  unfold parallelStart at started
  split at started
  · cases started
  · cases started
    have owned : ∀ index, index ∈ shuffled ++ [] ++ [] → index < chunkCount := by
      intro index member
      rw [append_nil, append_nil] at member
      exact mem_range.mp (permuted.mem_iff.mp member)
    refine ⟨shape, registerPeers_faithful contentHash, ?_, ?_, ?_, ?_⟩
    · simpa [ParallelState.owned] using permuted.nodup_iff.mpr nodup_range
    · intro index member
      have stands := getElem?_eq_getElem (shape.pieces.symm ▸ owned index member)
      refine ⟨_, stands, ?_⟩
      rw [Piece.isFailed, untouched _ (mem_of_getElem? stands)]
    · intro task member
      cases member
    · intro bytes returned
      cases returned

/-- A parallel download returns only what the holders answered, in every schedule. -/
theorem downloadParallel_served
    (returned : DownloadParallel fetch order maxConcurrent contentHash size chunkCount peers
      (.ok bytes)) :
    size ≤ capacityLimit ∧ ∃ chunks, Served fetch order peers chunkCount chunks ∧
      chunks.flatten = bytes := by
  obtain ⟨shuffled, actions, first, final, permuted, started, scheduled, result⟩ := returned
  have sane : Sane fetch order peers size chunkCount first :=
    parallelStart_sane contentHash permuted started
  exact (sane.schedule actions scheduled).returned bytes result

/-- These bytes are the requested blob. -/
def Requested (contentHash : ContentHash) (size : Nat) (bytes : Bytes) : Prop :=
  ContentHash.fromBytes bytes = contentHash ∧ bytes.length = size
deriving Decidable

/-- Both downloads return only the requested blob exactly when the answers of the holders, put
together, are the requested blob. -/
theorem download_requested_iff (fetch : ChunkFetcher) (order : List String) (maxConcurrent : Nat)
    (contentHash : ContentHash) (size chunkCount : Nat) (peers : List (String × Finset Nat)) :
    ((∀ clock bytes, download fetch order clock contentHash size chunkCount peers =
        some (.ok bytes) → Requested contentHash size bytes) ∧
      ∀ bytes, DownloadParallel fetch order maxConcurrent contentHash size chunkCount peers
        (.ok bytes) → Requested contentHash size bytes) ↔
      (size ≤ capacityLimit → ∀ chunks, Served fetch order peers chunkCount chunks →
        Requested contentHash size chunks.flatten) := by
  constructor
  · rintro ⟨sequential, _⟩ small chunks served
    exact sequential (fun _ => 0) chunks.flatten
      (download_complete (fun _ => by decide) small served)
  · intro requested
    refine ⟨fun clock bytes returned => ?_, fun bytes returned => ?_⟩
    · obtain ⟨small, chunks, served, rfl⟩ := download_served clock contentHash returned
      exact requested small chunks served
    · obtain ⟨small, chunks, served, rfl⟩ := downloadParallel_served contentHash returned
      exact requested small chunks served

/-- The only peer answers every request with no bytes. -/
def emptyFetcher : ChunkFetcher := fun _ _ => .ok []

/-- The only task runs between the spawning loop and the waiting loop. -/
def emptySchedule : List ParallelAction :=
  [.spawn 0, .spawn 0, .start 0 ⟨0, "mallory"⟩, .finish 0 ⟨0, "mallory"⟩, .receive, .collect]

/-- No bytes pass for the five bytes of `a3net` in both downloads. -/
theorem download_forged :
    (¬ ∀ (fetch : ChunkFetcher) (order : List String) (clock : Nat → Nat)
        (contentHash : ContentHash) (size chunkCount : Nat) (peers : List (String × Finset Nat))
        (bytes : Bytes), download fetch order clock contentHash size chunkCount peers =
          some (.ok bytes) → Requested contentHash size bytes) ∧
      ¬ ∀ (fetch : ChunkFetcher) (order : List String) (maxConcurrent : Nat)
        (contentHash : ContentHash) (size chunkCount : Nat) (peers : List (String × Finset Nat))
        (bytes : Bytes), DownloadParallel fetch order maxConcurrent contentHash size chunkCount
          peers (.ok bytes) → Requested contentHash size bytes := by
  have wrong : ¬ Requested sampleHash 5 [] := by decide +kernel
  refine ⟨fun claim => wrong ?_, fun claim => wrong ?_⟩
  · have served : Served emptyFetcher ["mallory"] [("mallory", {0})] 1 [[]] := by decide
    exact claim emptyFetcher ["mallory"] (fun _ => 0) sampleHash 5 1 [("mallory", {0})] []
      (download_complete (fun _ => by decide) (by decide) served)
  · have reached : ((parallelStart sampleHash 5 1 [("mallory", {0})] [0]).bind fun first =>
        first.schedule emptyFetcher ["mallory"] maxConcurrentDownloads emptySchedule).map
          ParallelState.phase = some (.returned (some (.ok []))) := by
      decide +kernel
    obtain ⟨final, run, returned⟩ := Option.map_eq_some_iff.mp reached
    obtain ⟨first, started, scheduled⟩ := Option.bind_eq_some_iff.mp run
    exact claim emptyFetcher ["mallory"] maxConcurrentDownloads sampleHash 5 1 [("mallory", {0})] []
      ⟨[0], emptySchedule, first, final, List.Perm.refl _, started, scheduled, returned⟩

/-- Each piece is offered by a peer that answers all requests, and no peer answers wrongly. -/
structure Reliable (fetch : ChunkFetcher) (order : List String)
    (peers : List (String × Finset Nat)) (chunks : List Bytes) : Prop where
  listed : ∀ index addr, offers peers index addr = true → addr ∈ order
  backed : ∀ index < chunks.length, ∃ addr, offers peers index addr = true ∧
    ∀ other < chunks.length, offers peers other addr = true → ∃ data, fetch addr other = .ok data
  right : ∀ addr index data, fetch addr index = .ok data → chunks[index]? = some data

/-- A download among reliable peers returns the content exactly when the first peer that is asked
for each piece answers, because no failed piece is asked for again. -/
theorem download_fallback_iff (contentHash : ContentHash)
    (timely : ∀ attempt, clock attempt < healthyWindow) (small : size ≤ capacityLimit)
    (reliable : Reliable fetch order peers chunks) :
    download fetch order clock contentHash size chunks.length peers = some (.ok chunks.flatten) ↔
      ∀ index < chunks.length, ∀ peer, holder order peers index = some peer →
        ∃ data, fetch peer index = .ok data := by
  constructor
  · intro returned index inside peer chosen
    obtain ⟨_, _, served, _⟩ := download_served clock contentHash returned
    obtain ⟨data, asked, _, held, answered⟩ := served.chunk inside
    cases held.symm.trans chosen
    exact ⟨data, answered⟩
  · intro answers
    apply download_complete timely small
    apply ext_getElem?
    intro index
    by_cases inside : index < chunks.length
    · obtain ⟨addr, offered, _⟩ := reliable.backed index inside
      obtain ⟨peer, chosen⟩ := Option.isSome_iff_exists.mp
        (find?_isSome.mpr ⟨addr, reliable.listed index addr offered, offered⟩)
      obtain ⟨data, answered⟩ := answers index inside peer chosen
      rw [getElem?_map, getElem?_map, reliable.right peer index data answered]
      simp [inside, answer, holder, chosen, answered]
    · simp [inside]

/-- Alice fails every request, and Bob answers. -/
def halfFetcher : ChunkFetcher := fun addr index =>
  if addr = "bob" ∧ index = 0 then .ok [1] else .error "refused"

theorem halfFetcher_reliable (alice : "alice" ∈ order) (bob : "bob" ∈ order) :
    Reliable halfFetcher order [("alice", {0}), ("bob", {0})] [[1]] where
  listed index addr offered := by
    unfold offers at offered
    simp only [reverse_cons, reverse_nil, nil_append, singleton_append, lookup_cons] at offered
    split at offered
    · next same => exact eq_of_beq same ▸ bob
    split at offered
    · next same => exact eq_of_beq same ▸ alice
    · cases offered
  backed := by
    intro index inside
    obtain rfl := Nat.lt_one_iff.mp inside
    refine ⟨"bob", by decide, fun other within _ => ?_⟩
    obtain rfl := Nat.lt_one_iff.mp within
    exact ⟨[1], rfl⟩
  right addr index data answered := by
    unfold halfFetcher at answered
    split at answered
    · next first =>
      cases answered
      rw [first.2]
      rfl
    · cases answered

theorem download_fallback_iff_bob_first :
    download halfFetcher ["bob", "alice"] (fun _ => 0) sampleHash 1 1
      [("alice", {0}), ("bob", {0})] = some (.ok [1]) := by
  apply (download_fallback_iff (fun _ => 0) sampleHash (fun _ => by decide) (by decide)
    (halfFetcher_reliable (by decide) (by decide))).mpr
  intro index inside peer chosen
  obtain rfl := Nat.lt_one_iff.mp inside
  cases chosen
  exact ⟨[1], rfl⟩

/-- Alice is asked first, and Bob is never asked. -/
theorem download_gives_up :
    ¬ ∀ (fetch : ChunkFetcher) (order : List String) (clock : Nat → Nat)
        (contentHash : ContentHash) (size : Nat) (peers : List (String × Finset Nat))
        (chunks : List Bytes), (∀ attempt, clock attempt < healthyWindow) →
          size ≤ capacityLimit → Reliable fetch order peers chunks →
          download fetch order clock contentHash size chunks.length peers =
            some (.ok chunks.flatten) := by
  intro claim
  have returned := claim halfFetcher ["alice", "bob"] (fun _ => 0) sampleHash 1
    [("alice", {0}), ("bob", {0})] [[1]] (fun _ => by decide) (by decide)
    (halfFetcher_reliable (by decide) (by decide))
  obtain ⟨_, _, served, _⟩ := download_served _ _ returned
  obtain ⟨data, peer, _, held, answered⟩ := served.chunk Nat.one_pos
  cases held
  cases answered

end A3Net.Swarm
