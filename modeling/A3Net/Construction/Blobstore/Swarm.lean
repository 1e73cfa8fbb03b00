/-
A piece stands at its index in the list of pieces, and an address order stands for the iteration
order of the peer map.
-/

import A3Net.Construction.Types.ContentHash
import A3Net.Machine.Table
import Mathlib.Data.Finset.Basic

namespace A3Net.Swarm

def maxConcurrentDownloads : Nat := 16

/-- The timeouts are in milliseconds. -/
def downloadTimeout : Nat := 60000
def parallelTimeout : Nat := 120000
def healthyWindow : Nat := 60000

/-- This is `isize::MAX` on a 64-bit target. -/
def capacityLimit : Nat := 2 ^ 63 - 1

inductive SwarmError where
  | chunkTimeout (index : Nat)
  | insufficientChunks (received required : Nat)
deriving DecidableEq

inductive PieceSelectionStrategy where
  | strictPriority
  | rarestFirst
  | endGame

structure PeerInfo where
  addr : String
  havePieces : Finset Nat := ∅
  downloadRate : Nat := 0
  lastSuccess : Nat
  failures : Nat := 0

variable (peer : PeerInfo)

def PeerInfo.recordFailure : PeerInfo := {peer with failures := peer.failures + 1}

def PeerInfo.isHealthy (now : Nat) : Bool :=
  decide (peer.failures < 5) && decide (now - peer.lastSuccess < healthyWindow)

def PeerInfo.updateAvailability (pieces : List Nat) : PeerInfo :=
  {peer with havePieces := pieces.foldl (fun known piece => insert piece known) peer.havePieces}

inductive PieceState where
  | pending
  | downloading (requestedFrom : List String) (startTime : Nat)
  | verified (data : Bytes) (receivedAt : Nat)
  | failed (error : String)

structure Piece where
  index : Nat
  state : PieceState := .pending
  availability : Nat := 0

variable (piece : Piece)

def Piece.isPending : Bool := piece.state matches .pending
def Piece.isVerified : Bool := piece.state matches .verified ..
def Piece.isFailed : Bool := piece.state matches .failed _

structure SwarmDownloader where
  size : Nat
  chunkCount : Nat
  contentHash : ContentHash
  pieces : List Piece
  peers : Table String PeerInfo := ∅
  bytesDownloaded : UInt64 := 0

namespace SwarmDownloader

def new (contentHash : ContentHash) (size chunkCount : Nat) : SwarmDownloader where
  size := size
  chunkCount := chunkCount
  contentHash := contentHash
  pieces := (List.range chunkCount).map fun index => {index := index}

variable (swarm : SwarmDownloader) (index : Nat)

/-- An index outside the map changes nothing. -/
def modifyPiece (change : Piece → Piece) : SwarmDownloader :=
  {swarm with pieces := swarm.pieces.modify index change}

def raiseAvailability : SwarmDownloader :=
  swarm.modifyPiece index fun piece => {piece with availability := piece.availability + 1}

variable (now : Nat)

def addPeer (addr : String) (havePieces : Finset Nat) : SwarmDownloader :=
  {swarm with
    peers := AList.insert addr {addr := addr, havePieces := havePieces, lastSuccess := now}
      swarm.peers}

/-- A second registration of one address replaces the first one and counts its pieces again. -/
def registerPeer (addr : String) (havePieces : Finset Nat) : SwarmDownloader :=
  let count (index : Nat) (piece : Piece) : Piece :=
    if index ∈ havePieces then {piece with availability := piece.availability + 1} else piece
  let counted : SwarmDownloader := {swarm with pieces := swarm.pieces.mapIdx count}
  counted.addPeer now addr havePieces

def registerPeerWithDiscovery (addr : String) (available : List Nat) :
    SwarmDownloader :=
  let known := match swarm.peers.lookup addr with
    | some peer => peer
    | none => {addr := addr, lastSuccess := now}
  available.foldl raiseAvailability
    {swarm with
      peers := AList.insert addr (known.updateAvailability available) swarm.peers}

/-- Both tie-breaks of the strategies use the lower index. -/
def selectNextPiece : PieceSelectionStrategy → Option Nat
  | .strictPriority =>
    (List.range swarm.chunkCount).find? fun index =>
      (swarm.pieces[index]?).any Piece.isPending
  | .rarestFirst =>
    let candidates := (swarm.pieces.filter Piece.isPending).map fun piece =>
      (piece.index, piece.availability)
    let sorted := candidates.mergeSort fun first second =>
      decide (first.2 < second.2) || (decide (first.2 = second.2) && decide (first.1 ≤ second.1))
    sorted.head?.map Prod.fst
  | .endGame =>
    ((swarm.pieces.filter fun piece => piece.isPending || piece.isFailed).map
      Piece.index).mergeSort.head?

/-- A faster peer comes first, and among equal rates the one with fewer failures. -/
def preferred (first second : PeerInfo) : Bool :=
  decide (second.downloadRate < first.downloadRate) ||
    (decide (first.downloadRate = second.downloadRate) && decide (first.failures ≤ second.failures))

def getPeerForPiece (order : List String) (now index : Nat) : Option String :=
  let candidates := (order.filterMap fun addr => swarm.peers.lookup addr).filter fun peer =>
    decide (index ∈ peer.havePieces) && peer.isHealthy now
  (candidates.mergeSort preferred).head?.map PeerInfo.addr

def markDownloading (now index : Nat) (peer : String) : SwarmDownloader :=
  swarm.modifyPiece index fun piece =>
    match piece.state with
    | .downloading requestedFrom startTime =>
      if peer ∈ requestedFrom then piece
      else {piece with state := .downloading (requestedFrom ++ [peer]) startTime}
    | _ => {piece with state := .downloading [peer] now}

/-- The data becomes verified without a check, and its length is counted for every index. -/
def markVerified (now index : Nat) (data : Bytes) : SwarmDownloader :=
  let marked := swarm.modifyPiece index fun piece => {piece with state := .verified data now}
  {marked with bytesDownloaded := marked.bytesDownloaded + UInt64.ofNat data.length}

def markFailed (error : String) : SwarmDownloader :=
  swarm.modifyPiece index fun piece => {piece with state := .failed error}

def markFailedBy (error peer : String) : SwarmDownloader :=
  {swarm.markFailed index error with
    peers := swarm.peers.modify peer PeerInfo.recordFailure}

def getVerifiedData : List (Nat × Bytes) :=
  swarm.pieces.filterMap fun piece =>
    match piece.state with
    | .verified data _ => some (piece.index, data)
    | _ => none

def isComplete : Bool := swarm.pieces.all Piece.isVerified

def isPieceFailed : Bool :=
  (swarm.pieces[index]?).any Piece.isFailed

def isPieceVerified : Bool :=
  (swarm.pieces[index]?).any Piece.isVerified

/-- Both downloads end with this count and this concatenation. No result stands for the panic of
`Vec::with_capacity` on a size above `isize::MAX`. -/
def reassemble : Option (Except SwarmError Bytes) :=
  let verified := swarm.getVerifiedData
  if verified.length ≠ swarm.chunkCount then
    some (.error (.insufficientChunks verified.length swarm.chunkCount))
  else if capacityLimit < swarm.size then none
  else some (.ok (verified.flatMap Prod.snd))

end SwarmDownloader

/-- A fetch answers with bytes or an error text, or it runs into the chunk timeout. -/
inductive FetchResult where
  | ok (data : Bytes)
  | error (text : String)
  | timeout

/-- One download asks a peer for a piece at most once, so its answers are a function. -/
abbrev ChunkFetcher := String → Nat → FetchResult

variable (swarm : SwarmDownloader)

def settle (now index : Nat) (peer : String) :
    FetchResult → SwarmDownloader
  | .ok data => swarm.markVerified now index data
  | .error text => swarm.markFailedBy index text peer
  | .timeout => swarm.markFailedBy index "Timeout" peer

/-- The peers are registered before the first piece is asked for. -/
def registerPeers (start : Nat)
    (peers : List (String × Finset Nat)) : SwarmDownloader :=
  peers.foldl (fun state peer => state.registerPeer start peer.1 peer.2) swarm

variable (fetch : ChunkFetcher) (order : List String)

/-- The clock gives the instant of each attempt, counted from the start of the download. -/
def attempts (clock : Nat → Nat) :
    Nat → Nat → SwarmDownloader → Except SwarmError SwarmDownloader
  | 0, _, swarm => .ok swarm
  | left + 1, attempt, swarm =>
    let now := clock attempt
    if downloadTimeout < now then .error (.chunkTimeout 0)
    else if swarm.isComplete then .ok swarm
    else
      match swarm.selectNextPiece .strictPriority with
      | none => .ok swarm
      | some index =>
        if swarm.isPieceFailed index then attempts clock left (attempt + 1) swarm
        else
          match swarm.getPeerForPiece order now index with
          | some peer =>
            attempts clock left (attempt + 1)
              (settle (swarm.markDownloading now index peer) now index peer
                (fetch peer index))
          | none =>
            attempts clock left (attempt + 1)
              (swarm.markFailed index "No peer available")

def download (clock : Nat → Nat) (contentHash : ContentHash) (size chunkCount : Nat)
    (peers : List (String × Finset Nat)) : Option (Except SwarmError Bytes) :=
  let registered := registerPeers (.new contentHash size chunkCount) 0 peers
  match attempts fetch order clock (chunkCount * 3) 0 registered with
  | .error error => some (.error error)
  | .ok finished => finished.reassemble

/-- A task holds its piece, its peer and one permit until it sends its result. -/
structure Task where
  index : Nat
  peer : String
deriving DecidableEq

inductive Phase where
  | spawning
  | waiting (remaining : Nat)
  | collecting
  | returned (result : Option (Except SwarmError Bytes))
deriving DecidableEq

/-- The channel holds for each finished task whether it sent data. -/
structure ParallelState where
  downloader : SwarmDownloader
  queue : List Nat
  spawned : List Task := []
  running : List Task := []
  channel : List Bool := []
  spawnedCount : Nat := 0
  phase : Phase := .spawning

/-- The spawning loop, the tasks and the waiting loop take their steps in any order. The tick
carries the time since the waiting loop began. -/
inductive ParallelAction where
  | spawn (now : Nat)
  | start (now : Nat) (task : Task)
  | finish (now : Nat) (task : Task)
  | receive
  | tick (waited : Nat)
  | collect

namespace ParallelState

variable (state : ParallelState)

def permits : Nat := state.spawned.length + state.running.length

def stopWaiting : ParallelState := {state with phase := .collecting}

variable (maxConcurrent : Nat) (state : ParallelState) (now : Nat)

/-- The spawning loop takes the next index when a permit is free. -/
def spawn : Option ParallelState :=
  match state.phase, state.queue with
  | .spawning, [] => some {state with phase := .waiting state.spawnedCount}
  | .spawning, index :: rest =>
    if state.downloader.isPieceVerified index then some {state with queue := rest}
    else if state.permits < maxConcurrent then
      match state.downloader.getPeerForPiece order now index with
      | none =>
        some {state with
          queue := rest
          downloader := state.downloader.markFailed index "No peer available"}
      | some peer =>
        some {state with
          queue := rest
          spawned := state.spawned ++ [⟨index, peer⟩]
          spawnedCount := state.spawnedCount + 1}
    else none
  | _, _ => none

/-- A task that starts after the overall timeout sends its error and fetches nothing. -/
def start (task : Task) : Option ParallelState :=
  if task ∈ state.spawned then
    if parallelTimeout < now then
      some {state with spawned := state.spawned.erase task, channel := state.channel ++ [false]}
    else
      some {state with
        spawned := state.spawned.erase task
        running := state.running ++ [task]
        downloader := state.downloader.markDownloading now task.index task.peer}
  else none

def finish (task : Task) : Option ParallelState :=
  if task ∈ state.running then
    let result := fetch task.peer task.index
    some {state with
      running := state.running.erase task
      downloader := settle state.downloader now task.index task.peer result
      channel := state.channel ++ [result matches .ok _]}
  else none

/-- The waiting loop stops when no result is missing or when every piece is verified. -/
def receive : Option ParallelState :=
  match state.phase with
  | .waiting 0 => some state.stopWaiting
  | .waiting (remaining + 1) =>
    match state.channel with
    | [] => none
    | sent :: rest =>
      let taken := {state with channel := rest, phase := .waiting remaining}
      some (if sent && taken.downloader.isComplete then taken.stopWaiting else taken)
  | _ => none

/-- The periodic check runs only while the channel is empty. -/
def tick (waited : Nat) : Option ParallelState :=
  match state.phase, state.channel with
  | .waiting (_ + 1), [] =>
    some (if state.downloader.isComplete || decide (parallelTimeout < waited) then
      state.stopWaiting else state)
  | _, _ => none

/-- An aborted task may still finish before the verified data is read. -/
def collect : Option ParallelState :=
  match state.phase with
  | .collecting => some {state with phase := .returned state.downloader.reassemble}
  | _ => none

def step : ParallelAction → Option ParallelState
  | .spawn now => state.spawn order maxConcurrent now
  | .start now task => state.start now task
  | .finish now task => state.finish fetch now task
  | .receive => state.receive
  | .tick waited => state.tick waited
  | .collect => state.collect

/-- A schedule runs only when each of its actions is enabled. -/
def schedule (actions : List ParallelAction) : Option ParallelState :=
  actions.foldlM (fun state action => state.step fetch order maxConcurrent action) state

end ParallelState

/-- The channel of capacity zero panics, so no piece means no download. -/
def parallelStart (contentHash : ContentHash) (size chunkCount : Nat)
    (peers : List (String × Finset Nat)) (shuffled : List Nat) : Option ParallelState :=
  if chunkCount = 0 then none
  else
    some {
      downloader := registerPeers (.new contentHash size chunkCount) 0 peers
      queue := shuffled}

/-- A schedule of the tasks makes `download_parallel` return this result. -/
def DownloadParallel (fetch : ChunkFetcher) (order : List String) (maxConcurrent : Nat)
    (contentHash : ContentHash) (size chunkCount : Nat) (peers : List (String × Finset Nat))
    (result : Except SwarmError Bytes) : Prop :=
  ∃ shuffled actions first final,
    shuffled.Perm (List.range chunkCount) ∧
    parallelStart contentHash size chunkCount peers shuffled = some first ∧
    first.schedule fetch order maxConcurrent actions = some final ∧
    final.phase = .returned (some result)

end A3Net.Swarm
