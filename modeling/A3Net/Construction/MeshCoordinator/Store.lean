/-
Each function is cut into the parts that hold one lock, and the parts of different calls may
alternate.
-/

import A3Net.Construction.Types.Mesh
import A3Net.Machine.Table

namespace A3Net.MeshCoordinator

open Cryptography Machine

/-- A uuid numbers a request. -/
abbrev JoinRequestId := BitVec 128

inductive CoordinatorError where
  | unknownInvite (code : String)
  | inviteExpired (code : String)
  | inviteAlreadyRedeemed (code : String)
  | unknownRequest (req : JoinRequestId)
  | invalidRequestState (actual expected : String)
  | hostnameTaken (host network : String)
  | alreadyMember (nodeIdShort network : String)
  | unknownMember (nodeIdShort network : String)
  | rosterFull (max : Nat)
  | networkIsOpen
deriving DecidableEq

inductive JoinRequestStatus where
  | pending
  | approved
  | denied
deriving DecidableEq

def JoinRequestStatus.toText : JoinRequestStatus → String
  | .pending => "pending"
  | .approved => "approved"
  | .denied => "denied"

structure JoinRequest where
  id : JoinRequestId
  network : MeshNetworkId
  nodeId : NodeId
  hostname : String
  requestedAt : Int
  status : JoinRequestStatus
  note : String

/-- This is seven days in nanoseconds. -/
def maxInviteTtl : Nat := 7 * 24 * 3600 * 1000000000

def maxRequests : Nat := 1024

def maxNoteLen : Nat := 256

structure CoordinatorConfig where
  defaultInviteTtl : Nat := 7 * 24 * 3600 * 1000000000
  maxRequests : Nat := MeshCoordinator.maxRequests
  maxNoteLen : Nat := MeshCoordinator.maxNoteLen

structure NetworkState where
  displayName : String
  policy : MeshPolicy
  roster : MeshMembership

structure InMemoryCoordinator where
  config : CoordinatorConfig
  networks : Table MeshNetworkId NetworkState := ∅
  pendingInvites : Table (MeshNetworkId × String) InviteCode := ∅
  pendingRequests : Table JoinRequestId JoinRequest := ∅
  resolvedRequests : Table JoinRequestId JoinRequest := ∅

/-- A call that panics has no answer. -/
abbrev Answer (Value : Type) := Option (Except CoordinatorError Value)

def missing : CoordinatorError := .invalidRequestState "missing" "exists"

/-- A call reads the clock several times, and it draws a secret and a uuid. -/
structure Surroundings where
  clock : Nat → Int := fun _ => 0
  secret : Bytes := []
  uuid : JoinRequestId := 0

def Surroundings.later (env : Surroundings) (count : Nat) : Surroundings :=
  {env with clock := fun reading => env.clock (reading + count)}

namespace InMemoryCoordinator

def new (config : CoordinatorConfig) : InMemoryCoordinator where
  config := config

variable (store : InMemoryCoordinator) (network : MeshNetworkId)

def checkHostAvailable (hostname : String) :
    Except CoordinatorError Unit :=
  match store.networks.lookup network with
  | none => .error missing
  | some state =>
    if state.roster.members.any (·.hostname = hostname) then
      .error (.hostnameTaken hostname state.displayName)
    else .ok ()

def checkNotAlreadyMember (member : NodeId) : Answer Unit :=
  match store.networks.lookup network with
  | none => some (.error missing)
  | some state =>
    if state.roster.members.any (·.nodeId = member) then
      member.short.map fun short => .error (.alreadyMember short state.displayName)
    else some (.ok ())

def create (displayName : String) (policy : MeshPolicy)
    (creator : NodeId) (env : Surroundings) :
    InMemoryCoordinator × Answer MeshMembership :=
  if (store.networks.lookup network).isSome then
    (store, some (.error (.invalidRequestState "exists" "missing")))
  else
    match MeshMember.newCoordinator creator displayName (env.clock 1) with
    | none => (store, none)
    | some coordinator =>
      let empty := MeshMembership.newUnsigned network [] (env.clock 0)
      let roster := {empty with members := empty.members ++ [coordinator]}.bumped (env.clock 2)
      ({store with networks := store.networks.insert network ⟨displayName, policy, roster⟩},
        some (.ok roster))

/-- The first part of `mint_invite` reads the networks. -/
def checkClosed : Except CoordinatorError Unit :=
  match store.networks.lookup network with
  | none => .error missing
  | some state => if state.policy = .openToAll then .error .networkIsOpen else .ok ()

/-- The second part of `mint_invite` writes the invites. -/
def insertInvite (ttlOverride : Option Nat) (env : Surroundings) :
    InMemoryCoordinator × InviteCode :=
  let ttl := min (ttlOverride.getD store.config.defaultInviteTtl) maxInviteTtl
  let invite := InviteCode.new network ttl env.secret (env.clock 0)
  ({store with pendingInvites := store.pendingInvites.insert (network, invite.code) invite}, invite)

/-- The first part of `redeem` writes the invites. -/
def claimInvite (code : String) (now : Int) :
    InMemoryCoordinator × Except CoordinatorError Unit :=
  match store.pendingInvites.lookup (network, code) with
  | none => (store, .error (.unknownInvite code))
  | some invite =>
    if invite.isExpired now then (store, .error (.inviteExpired code))
    else if invite.redeemed then (store, .error (.inviteAlreadyRedeemed code))
    else
      ({store with pendingInvites :=
          store.pendingInvites.insert (network, code) {invite with redeemed := true}}, .ok ())

variable (node : NodeId)

/-- The last part of `redeem` and of `accept_request` writes the networks. -/
def enrol (hostname : String)
    (env : Surroundings) : InMemoryCoordinator × Answer MeshMember :=
  match store.networks.lookup network with
  | none => (store, some (.error missing))
  | some state =>
    match MeshMember.newMember node hostname (env.clock 0) with
    | none => (store, none)
    | some member =>
      let roster := {state.roster with members := state.roster.members ++ [member]}.bumped
        (env.clock 1)
      ({store with networks := store.networks.insert network {state with roster := roster}},
        some (.ok member))

/-- The parts of `redeem` that come after the invite is marked. -/
def join (hostname : String)
    (env : Surroundings) : InMemoryCoordinator × Answer MeshMember :=
  match store.checkHostAvailable network hostname with
  | .error error => (store, some (.error error))
  | .ok () =>
    match store.checkNotAlreadyMember network node with
    | none => (store, none)
    | some (.error error) => (store, some (.error error))
    | some (.ok ()) => store.enrol network node hostname env

def redeem (code : String) (node : NodeId) (hostname : String)
    (env : Surroundings) : InMemoryCoordinator × Answer MeshMember :=
  match store.claimInvite network code (env.clock 0) with
  | (claimed, .error error) => (claimed, some (.error error))
  | (claimed, .ok ()) => claimed.join network node hostname (env.later 1)

def kick (env : Surroundings) :
    InMemoryCoordinator × Answer Unit :=
  match store.networks.lookup network with
  | none => (store, some (.error missing))
  | some state =>
    let kept := state.roster.members.filter (·.nodeId ≠ node)
    if kept.length = state.roster.members.length then
      (store, node.short.map fun short => .error (.unknownMember short state.displayName))
    else
      let roster := {state.roster with members := kept}.bumped (env.clock 0)
      ({store with networks := store.networks.insert network {state with roster := roster}},
        some (.ok ()))

/-- The first part of `request_join` reads the networks and the length of the note. -/
def checkRequest (note : String) : Except CoordinatorError Unit :=
  let length := (utf8 note).length
  let bound := store.config.maxNoteLen
  if (store.networks.lookup network).isNone then .error missing
  else if bound < length then .error (.invalidRequestState s!"len {length}" s!"<= {bound}")
  else .ok ()

/-- The second part of `request_join` writes the pending requests. -/
def insertRequest (hostname note : String)
    (env : Surroundings) : InMemoryCoordinator × Except CoordinatorError JoinRequestId :=
  if store.config.maxRequests ≤ store.pendingRequests.entries.length then
    (store, .error (.rosterFull store.config.maxRequests))
  else
    let req : JoinRequest :=
      ⟨env.uuid, network, node, hostname, env.clock 0, .pending, note⟩
    ({store with pendingRequests := store.pendingRequests.insert env.uuid req},
      .ok env.uuid)

variable (id : JoinRequestId)

/-- The first part of `accept_request` writes the pending requests. -/
def takeRequest :
    InMemoryCoordinator × Except CoordinatorError JoinRequest :=
  match store.pendingRequests.lookup id with
  | none => (store, .error (.unknownRequest id))
  | some req =>
    let removed := {store with pendingRequests := store.pendingRequests.erase id}
    if req.network ≠ network then
      ({removed with pendingRequests := removed.pendingRequests.insert id req},
        .error (.invalidRequestState "wrong-network" network.text))
    else if req.status ≠ .pending then
      (removed, .error (.invalidRequestState req.status.toText
        JoinRequestStatus.pending.toText))
    else (removed, .ok req)

/-- The last part of `accept_request` keeps the lock of the networks for its record. -/
def approve (req : JoinRequest)
    (env : Surroundings) : InMemoryCoordinator × Answer MeshMember :=
  match store.enrol network req.nodeId req.hostname env with
  | (admitted, some (.ok member)) =>
    ({admitted with resolvedRequests :=
        admitted.resolvedRequests.insert id {req with status := .approved}},
      some (.ok member))
  | failed => failed

def acceptRequest (env : Surroundings) :
    InMemoryCoordinator × Answer MeshMember :=
  match store.takeRequest network id with
  | (taken, .error error) => (taken, some (.error error))
  | (taken, .ok req) => taken.approve network id req env

def denyRequest :
    InMemoryCoordinator × Except CoordinatorError JoinRequest :=
  match store.pendingRequests.lookup id with
  | none => (store, .error (.unknownRequest id))
  | some req =>
    let removed := {store with pendingRequests := store.pendingRequests.erase id}
    if req.network ≠ network then
      ({removed with pendingRequests := removed.pendingRequests.insert id req},
        .error (.invalidRequestState "wrong-network" network.text))
    else
      let denied := {req with status := .denied}
      ({removed with resolvedRequests := removed.resolvedRequests.insert id denied}, .ok denied)

end InMemoryCoordinator

inductive Call where
  | create (network : MeshNetworkId) (displayName : String) (policy : MeshPolicy)
      (creator : NodeId)
  | mintInvite (network : MeshNetworkId) (ttlOverride : Option Nat)
  | redeem (network : MeshNetworkId) (code : String) (node : NodeId) (hostname : String)
  | kick (network : MeshNetworkId) (node : NodeId)
  | requestJoin (network : MeshNetworkId) (node : NodeId) (hostname note : String)
  | acceptRequest (network : MeshNetworkId) (id : JoinRequestId)
  | denyRequest (network : MeshNetworkId) (id : JoinRequestId)

/-- This is what a call does next, when it has released one lock and not yet taken another. -/
inductive Remainder where
  | insertInvite (network : MeshNetworkId) (ttlOverride : Option Nat)
  | checkHost (network : MeshNetworkId) (node : NodeId) (hostname : String)
  | checkMember (network : MeshNetworkId) (node : NodeId) (hostname : String)
  | enrol (network : MeshNetworkId) (node : NodeId) (hostname : String)
  | insertRequest (network : MeshNetworkId) (node : NodeId) (hostname note : String)
  | approve (network : MeshNetworkId) (id : JoinRequestId) (req : JoinRequest)

/-- A part that fails ends its call. -/
def continueWith {Value : Type} (part : Except CoordinatorError Value)
    (next : Value → Remainder) : Option Remainder :=
  match part with
  | .ok value => some (next value)
  | .error _ => none

namespace InMemoryCoordinator

variable (store : InMemoryCoordinator)

/-- A call runs up to the end of its first part. -/
def begin (env : Surroundings) :
    Call → InMemoryCoordinator × Option Remainder
  | .create network displayName policy creator =>
    ((store.create network displayName policy creator env).1, none)
  | .mintInvite network ttlOverride =>
    (store, continueWith (store.checkClosed network) fun _ => .insertInvite network ttlOverride)
  | .redeem network code node hostname =>
    let (claimed, part) := store.claimInvite network code (env.clock 0)
    (claimed, continueWith part fun _ => .checkHost network node hostname)
  | .kick network node => ((store.kick network node env).1, none)
  | .requestJoin network node hostname note =>
    (store, continueWith (store.checkRequest network note) fun _ =>
      .insertRequest network node hostname note)
  | .acceptRequest network id =>
    let (taken, part) := store.takeRequest network id
    (taken, continueWith part fun req => .approve network id req)
  | .denyRequest network id => ((store.denyRequest network id).1, none)

/-- A call runs up to the end of its next part. -/
def resume (env : Surroundings) :
    Remainder → InMemoryCoordinator × Option Remainder
  | .insertInvite network ttlOverride =>
    ((store.insertInvite network ttlOverride env).1, none)
  | .checkHost network node hostname =>
    (store, continueWith (store.checkHostAvailable network hostname) fun _ =>
      .checkMember network node hostname)
  | .checkMember network node hostname =>
    (store, (store.checkNotAlreadyMember network node).bind fun part =>
      continueWith part fun _ => .enrol network node hostname)
  | .enrol network node hostname => ((store.enrol network node hostname env).1, none)
  | .insertRequest network node hostname note =>
    ((store.insertRequest network node hostname note env).1, none)
  | .approve network id req => ((store.approve network id req env).1, none)

end InMemoryCoordinator

/-- Tasks share one coordinator, and each is in at most one call. -/
structure Tasks (Task : Type) where
  store : InMemoryCoordinator
  remainder : Task → Option Remainder

/-- One event runs one part of one call. -/
inductive Event (Task : Type) where
  | start (task : Task) (call : Call) (env : Surroundings)
  | resume (task : Task) (env : Surroundings)

namespace Tasks

variable {Task : Type} [DecidableEq Task]

def idle (config : CoordinatorConfig) : Tasks Task := ⟨.new config, fun _ => none⟩

def record (tasks : Tasks Task) (task : Task)
    (part : InMemoryCoordinator × Option Remainder) : Tasks Task :=
  ⟨part.1, Function.update tasks.remainder task part.2⟩

def step (tasks : Tasks Task) : Event Task → Tasks Task
  | .start task call env =>
    match tasks.remainder task with
    | none => tasks.record task (tasks.store.begin env call)
    | some _ => tasks
  | .resume task env =>
    match tasks.remainder task with
    | none => tasks
    | some remainder => tasks.record task (tasks.store.resume env remainder)

end Tasks
end A3Net.MeshCoordinator
