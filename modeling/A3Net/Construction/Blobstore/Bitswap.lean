/-
An instant is a natural number, and every operation that reads the clock takes its value.
-/

import A3Net.Construction.Types.ContentHash
import A3Net.Machine.Table
import Mathlib.Data.Finset.Basic

namespace A3Net.Bitswap

abbrev PeerId := String

def maxPendingWants : Nat := 256
def defaultPeerBudgetBytes : UInt64 := 10 * 1024 * 1024
def wantHaveTimeout : Nat := 10
def wantBlockTimeout : Nat := 60

structure BitswapWant where
  block : ContentHash
  priority : Int
  sendDontHave : Bool

structure BitswapResponse where
  block : ContentHash
  hasBlock : Bool
  data : Option Bytes

/-- The constructor `haveBlock` is the answer `Have`. -/
inductive BitswapMessage where
  | wantHave (block : ContentHash) (priority : Int) (sendDontHave : Bool)
  | wantBlock (block : ContentHash) (priority : Int)
  | cancel (block : ContentHash)
  | haveBlock (block : ContentHash) (immediate : Bool)
  | dontHave (block : ContentHash)
  | block (block : ContentHash) (data : Bytes)
  | batchWant (wants : List BitswapWant)
  | batchResponse (responses : List BitswapResponse)

inductive PeerIdValidationError where
  | tooShort (actual min : Nat)
  | tooLong (actual max : Nat)
  | invalidCharacters (reason : String)

structure PeerIdConfig where
  minLength : Nat := 4
  maxLength : Nat := 128
  allowedPattern : Option String := some "^[a-zA-Z0-9_-]+$"

def isAsciiWord (char : Char) : Bool :=
  char.isAlphanum || char == '_' || char == '-'

/-- Every pattern but the lowercase one falls back to the word characters. -/
def checkPattern (peerId pattern : String) : Option String :=
  if pattern = "^[a-z]+$" then
    (peerId.toList.find? fun char => !char.isLower).map fun char =>
      "found invalid character: '" ++ char.toString ++ "' (expected lowercase letter)"
  else
    (peerId.toList.find? fun char => !isAsciiWord char).map fun char =>
      "found invalid character: '" ++ char.toString ++ "'"

def PeerIdConfig.validate (config : PeerIdConfig) (peerId : PeerId) :
    Except PeerIdValidationError Unit :=
  let length := peerId.utf8ByteSize
  if length < config.minLength then .error (.tooShort length config.minLength)
  else if length > config.maxLength then .error (.tooLong length config.maxLength)
  else
    match config.allowedPattern.bind (checkPattern peerId) with
    | some reason => .error (.invalidCharacters reason)
    | none => .ok ()

structure PeerLedger where
  bytesSent : UInt64 := 0
  bytesReceived : UInt64 := 0
  blocksSent : UInt64 := 0
  blocksReceived : UInt64 := 0
  creditLimit : UInt64 := defaultPeerBudgetBytes

variable (ledger : PeerLedger) (bytes : UInt64)

def PeerLedger.recordReceived : PeerLedger :=
  {ledger with bytesReceived := ledger.bytesReceived + bytes}

def PeerLedger.recordBlockReceived : PeerLedger :=
  {ledger with blocksReceived := ledger.blocksReceived + 1}

structure PeerWantList where
  wants : Finset ContentHash := ∅
  wantHaves : Finset ContentHash := ∅

variable (list : PeerWantList) (block : ContentHash)

def PeerWantList.addWantHave : PeerWantList :=
  {list with wantHaves := insert block list.wantHaves}

def PeerWantList.removeWant : PeerWantList :=
  {list with wants := list.wants.erase block}

structure PeerState where
  peerId : PeerId
  connectedAt : Nat
  lastMessage : Nat
  ledger : PeerLedger := {}
  wantList : PeerWantList := {}
  knownBlocks : Finset ContentHash := ∅
  pendingRequests : Table ContentHash Nat := ∅

def PeerState.new (peerId : PeerId) (now : Nat) : PeerState where
  peerId := peerId
  connectedAt := now
  lastMessage := now

variable (peer : PeerState) (now : Nat)

def PeerState.recordMessage : PeerState :=
  {peer with lastMessage := now}

def PeerState.addKnownBlock : PeerState :=
  {peer with knownBlocks := insert block peer.knownBlocks}

def PeerState.startRequest (block : ContentHash) : PeerState :=
  {peer with pendingRequests := AList.insert block now peer.pendingRequests}

def PeerState.completeRequest : PeerState :=
  {peer with pendingRequests := AList.erase block peer.pendingRequests}

def PeerState.cleanupTimedout (now timeout : Nat) : PeerState :=
  {peer with pendingRequests := peer.pendingRequests.keep fun started => now - started < timeout}

structure BitswapSession where
  id : UInt64
  root : Option ContentHash := none
  peers : List PeerId := []
  blocks : Finset ContentHash := ∅
  activeWants : Finset ContentHash := ∅
  peerScores : Table PeerId Nat := ∅
  createdAt : Nat
  lastActivity : Nat

variable (session : BitswapSession)

def BitswapSession.addBlock (block : ContentHash) : BitswapSession :=
  {session with blocks := insert block session.blocks, lastActivity := now}

def BitswapSession.startWant (block : ContentHash) : BitswapSession :=
  {session with activeWants := insert block session.activeWants, lastActivity := now}

/-- A peer that the session does not know gets no score. -/
def BitswapSession.updateFromHave (peerId : PeerId) (blocks : List ContentHash) :
    BitswapSession :=
  {session with
    peerScores := session.peerScores.modify peerId (· + blocks.length), lastActivity := now}

structure SessionManager where
  sessions : Table UInt64 BitswapSession := ∅
  nextId : UInt64 := 1
  maxSessions : Nat

variable (manager : SessionManager)

def SessionManager.updateSession (session : BitswapSession) :
    SessionManager :=
  {manager with sessions := AList.insert session.id session manager.sessions}

def oldest (sessions : List BitswapSession) : Option BitswapSession :=
  sessions.foldl (fun best session =>
    match best with
    | some first => if session.createdAt < first.createdAt then some session else best
    | none => some session) none

/-- A full manager evicts its oldest session first. -/
def SessionManager.createSession (now : Nat) :
    SessionManager × BitswapSession :=
  let session : BitswapSession := {id := manager.nextId, createdAt := now, lastActivity := now}
  let kept := if manager.sessions.entries.length ≥ manager.maxSessions then
      match oldest manager.sessions.values with
      | some first => AList.erase first.id manager.sessions
      | none => manager.sessions
    else manager.sessions
  ({manager with sessions := AList.insert session.id session kept, nextId := manager.nextId + 1},
    session)

structure PendingWant where
  block : ContentHash
  priority : Int
  wantHave : Bool
  sendDontHave : Bool
  createdAt : Nat
  deadline : Nat

def PendingWant.wantBlock (block : ContentHash) (priority : Int) : PendingWant :=
  ⟨block, priority, false, false, now, now + wantBlockTimeout⟩

def PendingWant.ofWantHave (block : ContentHash) (priority : Int) : PendingWant :=
  ⟨block, priority, true, true, now, now + wantHaveTimeout⟩

/-- The heap of pending wants is the list of its elements. -/
structure WantManager where
  peerWants : Table PeerId PeerWantList := ∅
  pendingWants : List PendingWant := []
  localBlocks : Finset ContentHash := ∅
  blockData : Table ContentHash Bytes := ∅

namespace WantManager

variable (wants : WantManager) (block : ContentHash)

def addLocalBlock : WantManager :=
  {wants with localBlocks := insert block wants.localBlocks}

def addBlockData (data : Bytes) : WantManager :=
  {wants with blockData := AList.insert block data wants.blockData}

def hasLocal : Bool := block ∈ wants.localBlocks

def getBlockData : Option Bytes :=
  wants.blockData.lookup block

def removeWant (wants : WantManager) (peerId : PeerId) (block : ContentHash) : WantManager :=
  {wants with peerWants := wants.peerWants.modify peerId (·.removeWant block)}

def getWanters : List PeerId :=
  (wants.peerWants.entries.filter fun entry =>
    decide (block ∈ entry.2.wants) || decide (block ∈ entry.2.wantHaves)).map Sigma.fst

def pushPending (want : PendingWant) : WantManager :=
  if wants.pendingWants.length < maxPendingWants then
    {wants with pendingWants := want :: wants.pendingWants}
  else wants

def cleanupExpired (now : Nat) : WantManager :=
  {wants with pendingWants := wants.pendingWants.filter fun want => now < want.deadline}

end WantManager

structure BitswapMetrics where
  messagesReceived : Nat := 0
  wantHavesSent : Nat := 0
  wantBlocksSent : Nat := 0
  blocksReceived : Nat := 0
  blocksSent : Nat := 0
  bytesReceived : Nat := 0
  activeSessions : Nat := 0
  activePeers : Nat := 0
  pendingWants : Nat := 0

/-- The two callbacks are functions, as `with_block_provider` and `with_peer_discovery` set them. -/
structure BitswapEngine where
  peers : Table PeerId PeerState := ∅
  sessions : SessionManager := {maxSessions := 256}
  wants : WantManager := {}
  metrics : BitswapMetrics := {}
  peerValidator : PeerIdConfig := {}
  blockProvider : ContentHash → Option Bytes := fun _ => none
  peerDiscovery : ContentHash → List PeerId := fun _ => []

namespace BitswapEngine

def addLocalBlock (engine : BitswapEngine) (block : ContentHash) : BitswapEngine :=
  {engine with wants := engine.wants.addLocalBlock block}

variable (engine : BitswapEngine) (now : Nat)

def addPeer (peerId : PeerId) : BitswapEngine × Except PeerIdValidationError Unit :=
  match engine.peerValidator.validate peerId with
  | .error reason => (engine, .error reason)
  | .ok () =>
    if peerId ∈ engine.peers then (engine, .ok ())
    else
      ({engine with
        peers := AList.insert peerId (PeerState.new peerId now) engine.peers
        metrics := {engine.metrics with activePeers := engine.metrics.activePeers + 1}}, .ok ())

variable (peerId : PeerId)

def removePeer : BitswapEngine :=
  if peerId ∈ engine.peers then
    {engine with
      peers := AList.erase peerId engine.peers
      metrics := {engine.metrics with activePeers := engine.metrics.activePeers - 1}}
  else engine

def startRequestForPeer (peerId : PeerId) (block : ContentHash) :
    BitswapEngine × Bool :=
  ({engine with peers := engine.peers.modify peerId (·.startRequest now block)},
    decide (peerId ∈ engine.peers))

def createSession (engine : BitswapEngine) (now : Nat) : BitswapEngine × BitswapSession :=
  let created := engine.sessions.createSession now
  ({engine with sessions := created.1}, created.2)

/-- The answer to a want-block records the bytes as received, in both of its branches. -/
def serveBlock (block : ContentHash) : BitswapEngine × List BitswapMessage :=
  match engine.blockProvider block with
  | none => (engine, [])
  | some data =>
    let size := UInt64.ofNat data.length
    ({engine with
      peers := engine.peers.modify peerId fun peer =>
        {peer with ledger := peer.ledger.recordBlockReceived.recordReceived size}
      metrics := {engine.metrics with
        bytesReceived := engine.metrics.bytesReceived + data.length
        blocksSent := engine.metrics.blocksSent + 1}},
      [.block block data])

def handleWantHave (block : ContentHash) : BitswapEngine × List BitswapMessage :=
  if engine.wants.hasLocal block then (engine, [.haveBlock block true])
  else
    ({engine with
      peers := (engine.wants.getWanters block).foldl
        (fun peers wanter => peers.modify wanter fun peer =>
          {peer with wantList := peer.wantList.addWantHave block}) engine.peers}, [])

def handleWantBlock (block : ContentHash) : BitswapEngine × List BitswapMessage :=
  if engine.wants.hasLocal block then engine.serveBlock peerId block
  else engine.serveBlock peerId block

def handleHave (peerId : PeerId) (block : ContentHash) : BitswapEngine :=
  {engine with
    peers := engine.peers.modify peerId (·.addKnownBlock block)
    sessions := engine.sessions.sessions.values.foldl (fun manager session =>
      if block ∈ session.blocks then
        manager.updateSession (session.updateFromHave now peerId [block])
      else manager) engine.sessions}

/-- A received block is stored under the hash that its message names. -/
def handleBlock (block : ContentHash) (data : Bytes) : BitswapEngine :=
  let stored := engine.wants.addBlockData block data
  {engine with
    wants := (stored.getWanters block).foldl (fun wants wanter => wants.removeWant wanter block) stored
    peers := engine.peers.modify peerId fun peer =>
      ({peer with ledger :=
        peer.ledger.recordBlockReceived.recordReceived (UInt64.ofNat data.length)} :
          PeerState).completeRequest block
    metrics := {engine.metrics with
      bytesReceived := engine.metrics.bytesReceived + data.length
      blocksReceived := engine.metrics.blocksReceived + 1}}

def handleMessage (peerId : PeerId) :
    BitswapMessage → BitswapEngine × List BitswapMessage
  | .wantHave block _ _ => engine.handleWantHave block
  | .wantBlock block _ => engine.handleWantBlock peerId block
  | .haveBlock block _ => (engine.handleHave now peerId block, [])
  | .dontHave block =>
    ({engine with peers := engine.peers.modify peerId (·.completeRequest block)}, [])
  | .block block data => (engine.handleBlock peerId block data, [])
  | .cancel block => ({engine with wants := engine.wants.removeWant peerId block}, [])
  | .batchWant _ => (engine, [])
  | .batchResponse _ => (engine, [])

def countMessage : BitswapEngine :=
  {engine with metrics := {engine.metrics with
    messagesReceived := engine.metrics.messagesReceived + 1}}

/-- The engine answers only a peer that it knows. -/
def processMessage (peerId : PeerId) (msg : BitswapMessage) :
    BitswapEngine × List BitswapMessage :=
  if peerId ∈ engine.peers then
    let noted := {engine with peers := engine.peers.modify peerId (·.recordMessage now)}
    let handled := noted.handleMessage now peerId msg
    (handled.1.countMessage, handled.2)
  else (engine.countMessage, [])

/-- One want updates the copy of the session that the call read at its start. -/
def createWant (session : Option BitswapSession) (priority : Int) (block : ContentHash) :
    BitswapEngine :=
  {engine with
    wants := (engine.wants.addLocalBlock block).pushPending (.ofWantHave now block priority)
    sessions := match session with
      | some found =>
        engine.sessions.updateSession ((found.addBlock now block).startWant now block)
      | none => engine.sessions
    metrics := {engine.metrics with wantHavesSent := engine.metrics.wantHavesSent + 1}}

def countPending : BitswapEngine :=
  {engine with metrics := {engine.metrics with
    pendingWants := engine.wants.pendingWants.length}}

def createWants (sessionId : UInt64) (blocks : List ContentHash) (priority : Int) :
    BitswapEngine × List BitswapMessage :=
  let session := engine.sessions.sessions.lookup sessionId
  ((blocks.foldl (fun state block => state.createWant now session priority block) engine).countPending,
    blocks.map fun block => .wantHave block priority true)

/-- The pending request goes to a clone of the peer, which the source drops. -/
def requestBlock (priority : Int) (block : ContentHash) :
    BitswapEngine × List BitswapMessage :=
  if engine.wants.hasLocal block || (engine.wants.getBlockData block).isSome then (engine, [])
  else
    let available := engine.peers.values.filter fun peer => block ∈ peer.knownBlocks
    let pushed := {engine with wants := engine.wants.pushPending (.wantBlock now block priority)}
    if available.isEmpty then (pushed, [.wantHave block priority true])
    else
      ({pushed with metrics := {pushed.metrics with
        wantBlocksSent := pushed.metrics.wantBlocksSent + available.length}},
        available.map fun _ => .wantBlock block priority)

def requestBlocks (_sessionId : UInt64) (blocks : List ContentHash) (priority : Int) :
    BitswapEngine × List BitswapMessage :=
  let requested := blocks.foldl (fun state block =>
    let asked := state.1.requestBlock now priority block
    (asked.1, state.2 ++ asked.2)) (engine, [])
  (requested.1.countPending, requested.2)

def getBlock (block : ContentHash) : Option Bytes :=
  engine.wants.getBlockData block

def cleanup : BitswapEngine :=
  let wants := engine.wants.cleanupExpired now
  let sessions := {engine.sessions with
    sessions := engine.sessions.sessions.keep fun session => now - session.lastActivity ≤ 300}
  {engine with
    wants := wants
    sessions := sessions
    peers := engine.peers.mapValues (·.cleanupTimedout now wantBlockTimeout)
    metrics := {engine.metrics with
      pendingWants := wants.pendingWants.length
      activeSessions := sessions.sessions.entries.length}}

end BitswapEngine

/-- These are the calls that change an engine. -/
inductive Call where
  | processMessage (now : Nat) (peerId : PeerId) (msg : BitswapMessage)
  | createWants (now : Nat) (sessionId : UInt64) (blocks : List ContentHash) (priority : Int)
  | requestBlocks (now : Nat) (sessionId : UInt64) (blocks : List ContentHash) (priority : Int)
  | addPeer (now : Nat) (peerId : PeerId)
  | removePeer (peerId : PeerId)
  | addLocalBlock (block : ContentHash)
  | startRequestForPeer (now : Nat) (peerId : PeerId) (block : ContentHash)
  | createSession (now : Nat)
  | cleanup (now : Nat)

def BitswapEngine.call (engine : BitswapEngine) : Call → BitswapEngine
  | .processMessage now peerId msg => (engine.processMessage now peerId msg).1
  | .createWants now sessionId blocks priority => (engine.createWants now sessionId blocks priority).1
  | .requestBlocks now sessionId blocks priority =>
    (engine.requestBlocks now sessionId blocks priority).1
  | .addPeer now peerId => (engine.addPeer now peerId).1
  | .removePeer peerId => engine.removePeer peerId
  | .addLocalBlock block => engine.addLocalBlock block
  | .startRequestForPeer now peerId block => (engine.startRequestForPeer now peerId block).1
  | .createSession now => (engine.createSession now).1
  | .cleanup now => engine.cleanup now

end A3Net.Bitswap
