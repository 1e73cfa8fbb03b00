import A3Net.Proof.MeshCoordinator.RosterUniqueness

namespace A3Net.MeshCoordinator

open Cryptography Machine InMemoryCoordinator List

/-- Rosters, invites and pending requests are as before. -/
structure Unchanged (before after : InMemoryCoordinator) : Prop where
  networks : ∀ network, after.networks.lookup network = before.networks.lookup network
  invites : ∀ key, after.pendingInvites.lookup key = before.pendingInvites.lookup key
  requests : ∀ id, after.pendingRequests.lookup id = before.pendingRequests.lookup id

/-- One roster has one more member and the next version, and every other roster is as before. -/
structure OneMore (network : MeshNetworkId) (member : MeshMember)
    (before after : InMemoryCoordinator) : Prop where
  grown : ∃ old new, before.networks.lookup network = some old ∧
    after.networks.lookup network = some new ∧
    new.roster.members = old.roster.members ++ [member] ∧
    new.roster.version.toNat = old.roster.version.toNat + 1
  others : ∀ other, other ≠ network → after.networks.lookup other = before.networks.lookup other

/-- The named invite was open and admits nobody else, and every other invite is as before. -/
structure InviteUsed (network : MeshNetworkId) (code : String)
    (before after : InMemoryCoordinator) : Prop where
  redeemed : ∃ invite, before.pendingInvites.lookup (network, code) = some invite ∧
    invite.redeemed = false ∧
    after.pendingInvites.lookup (network, code) = some {invite with redeemed := true}
  others : ∀ key, key ≠ (network, code) →
    after.pendingInvites.lookup key = before.pendingInvites.lookup key
  requests : ∀ id, after.pendingRequests.lookup id = before.pendingRequests.lookup id
  spent : ∀ node hostname env, ∃ error,
    (after.redeem network code node hostname env).2 = some (.error error)

/-- The named request was pending and is gone, and every other request is as before. -/
structure RequestUsed (network : MeshNetworkId) (id : JoinRequestId)
    (before after : InMemoryCoordinator) : Prop where
  gone : ∃ req, before.pendingRequests.lookup id = some req ∧
    req.network = network ∧ after.pendingRequests.lookup id = none
  others : ∀ other, other ≠ id →
    after.pendingRequests.lookup other = before.pendingRequests.lookup other
  invites : ∀ key, after.pendingInvites.lookup key = before.pendingInvites.lookup key
  spent : ∀ env, ∃ error, (after.acceptRequest network id env).2 = some (.error error)

/-- A node comes in with an invite or after a request. -/
inductive Admission where
  | redeem (network : MeshNetworkId) (code : String) (node : NodeId) (hostname : String)
  | acceptRequest (network : MeshNetworkId) (id : JoinRequestId)

namespace Admission

def network : Admission → MeshNetworkId
  | .redeem network _ _ _ => network
  | .acceptRequest network _ => network

variable (store : InMemoryCoordinator) (env : Surroundings)

def call :
    Admission → InMemoryCoordinator × Answer MeshMember
  | .redeem network code node hostname => store.redeem network code node hostname env
  | .acceptRequest network id => store.acceptRequest network id env

/-- The call uses up what it names and nothing else. -/
def Used (before after : InMemoryCoordinator) : Admission → Prop
  | .redeem network code _ _ => InviteUsed network code before after
  | .acceptRequest network id => RequestUsed network id before after

variable (admission : Admission)

/-- A refused call can be made again as if it had not been made, and a granted call has its whole
effect. -/
def AllOrNothing (store : InMemoryCoordinator) :
    InMemoryCoordinator × Answer MeshMember → Prop
  | (_, none) => True
  | (after, some (.error _)) =>
    Unchanged store after ∧
      ∀ (again : Admission) (later : Surroundings),
        (again.call after later).2 = (again.call store later).2
  | (after, some (.ok member)) =>
    OneMore admission.network member store after ∧ admission.Used store after

def Atomic : Prop :=
  admission.AllOrNothing store (admission.call store env)

/-- Whatever passes the checks that come before the invite or the request is used up passes the
checks that come after it. -/
def Clear : Admission → Prop
  | .redeem network code node hostname =>
    ∀ invite, store.pendingInvites.lookup (network, code) = some invite →
      invite.isExpired (env.clock 0) = false → invite.redeemed = false →
      ∃ state, store.networks.lookup network = some state ∧
        (∀ member ∈ state.roster.members, member.hostname ≠ hostname ∧ member.nodeId ≠ node) ∧
        ((VirtualIp.fromNodeId node).isSome → state.roster.version + 1 ≠ 0)
  | .acceptRequest network id =>
    ∀ req, store.pendingRequests.lookup id = some req → req.network = network →
      req.status = .pending ∧
      ∃ state, store.networks.lookup network = some state ∧
        ((VirtualIp.fromNodeId req.nodeId).isSome → state.roster.version + 1 ≠ 0)

end Admission

theorem utf8Size_of_hexValue {char : Char} (digit : (hexValue char).isSome) :
    char.utf8Size = 1 := by
  have small : char.toNat ≤ 102 := by
    unfold hexValue at digit
    split_ifs at digit
    · omega
    · omega
    · omega
    · cases digit
  rw [Char.utf8Size_eq_one_iff, UInt32.le_iff_toNat_le]
  exact small.trans (by decide)

theorem hexValue_of_bytesOfHexChars {text : List Char} {bytes : Bytes}
    (decoded : bytesOfHexChars text = some bytes) :
    ∀ char ∈ text, (hexValue char).isSome := by
  induction text using bytesOfHexChars.induct generalizing bytes with
  | case1 => simp
  | case2 => cases decoded
  | case3 high low rest ih =>
    simp only [bytesOfHexChars, Option.bind_eq_bind, Option.bind_eq_some_iff] at decoded
    obtain ⟨highValue, highRead, lowValue, lowRead, later, restRead, _⟩ := decoded
    exact forall_mem_cons.mpr ⟨by simp [highRead],
      forall_mem_cons.mpr ⟨by simp [lowRead], ih restRead⟩⟩

theorem takeBytes_isSome (size : Nat) (text : List Char)
    (single : ∀ char ∈ text, char.utf8Size = 1) : (takeBytes size text).isSome := by
  induction text generalizing size with
  | nil => cases size <;> rfl
  | cons char rest ih =>
    cases size with
    | zero => rfl
    | succ size =>
      have one := single char mem_cons_self
      have later := ih (size + 1 - 1) fun other member =>
        single other (mem_cons_of_mem _ member)
      simp only [takeBytes, one, Nat.le_add_left, if_true, Option.isSome_map]
      exact later

/-- The identifier of a member has a short form. -/
theorem member_short_isSome (member : MeshMember) : member.nodeId.short.isSome := by
  have derived := member.derived
  unfold VirtualIp.fromNodeId VirtualIp.ipv6FromNodeId at derived
  simp only [Option.bind_eq_bind, Option.bind_eq_some_iff] at derived
  obtain ⟨_, _, _, ⟨bytes, decoded, _⟩, _⟩ := derived
  rw [NodeId.short, Option.isSome_map]
  exact takeBytes_isSome 12 _ fun char found =>
    utf8Size_of_hexValue (hexValue_of_bytesOfHexChars decoded char found)

variable {store : InMemoryCoordinator} {network : MeshNetworkId}
  {result : InMemoryCoordinator × Answer MeshMember} {env : Surroundings}
  {id : JoinRequestId} {code : String} {req : JoinRequest} {invite : InviteCode}
  {state : NetworkState} {after : InMemoryCoordinator} {hostname : String} {now : Int}
  {node : NodeId}

section

variable {first second : InMemoryCoordinator}
  (same : first.networks.lookup network = second.networks.lookup network)
include same

theorem enrol_answer_congr :
    (first.enrol network node hostname env).2 = (second.enrol network node hostname env).2 := by
  unfold enrol
  rw [same]
  split
  · rfl
  · split <;> rfl

theorem join_answer_congr :
    (first.join network node hostname env).2 = (second.join network node hostname env).2 := by
  have admitted := @enrol_answer_congr network env hostname node _ _ same
  unfold join checkHostAvailable checkNotAlreadyMember
  rw [same]
  repeat' split
  all_goals first | rfl | exact admitted

end

theorem approve_answer : (store.approve network id req env).2 =
      (store.enrol network req.nodeId req.hostname env).2 := by
  unfold approve
  split
  · next admitted => rw [admitted]
  · rfl

theorem redeem_answer : (store.redeem network code node hostname env).2 =
      match (store.claimInvite network code (env.clock 0)).2 with
      | .error error => some (.error error)
      | .ok () => (store.join network node hostname (env.later 1)).2 := by
  have networks := claimInvite_networks store network code (env.clock 0)
  unfold redeem
  split
  · next claimed => rw [claimed]
  · next claimed =>
    rw [claimed] at networks ⊢
    exact join_answer_congr (congrArg _ networks)

theorem acceptRequest_answer : (store.acceptRequest network id env).2 =
      match (store.takeRequest network id).2 with
      | .error error => some (.error error)
      | .ok req => (store.enrol network req.nodeId req.hostname env).2 := by
  have networks := takeRequest_networks store network id
  unfold acceptRequest
  split
  · next taken => rw [taken]
  · next taken =>
    rw [taken] at networks ⊢
    rw [approve_answer]
    exact enrol_answer_congr (congrArg _ networks)

/-- The answer to an admission depends on what the tables hold and not on how they hold it. -/
theorem call_answer_congr {before : InMemoryCoordinator} (same : Unchanged before after)
    (admission : Admission) (env : Surroundings) :
    (admission.call after env).2 = (admission.call before env).2 := by
  cases admission with
  | redeem network code node hostname =>
    have claimed : (after.claimInvite network code (env.clock 0)).2 =
        (before.claimInvite network code (env.clock 0)).2 := by
      unfold claimInvite
      rw [same.invites]
      repeat' split
      all_goals rfl
    show (after.redeem network code node hostname env).2 =
      (before.redeem network code node hostname env).2
    rw [redeem_answer, redeem_answer, claimed, join_answer_congr (same.networks network)]
  | acceptRequest network id =>
    have taken : (after.takeRequest network id).2 = (before.takeRequest network id).2 := by
      unfold takeRequest
      rw [same.requests]
      repeat' split
      all_goals rfl
    show (after.acceptRequest network id env).2 = (before.acceptRequest network id env).2
    rw [acceptRequest_answer, acceptRequest_answer, taken]
    split
    · rfl
    · exact enrol_answer_congr (same.networks network)

/-- Nobody in the roster has the identifier or the hostname. -/
def Vacant (store : InMemoryCoordinator) (network : MeshNetworkId) (node : NodeId)
    (hostname : String) (state : NetworkState) : Prop :=
  store.networks.lookup network = some state ∧
    ∀ member ∈ state.roster.members, member.hostname ≠ hostname ∧ member.nodeId ≠ node

theorem join_vacant (vacant : Vacant store network node hostname state) :
    store.join network node hostname env = store.enrol network node hostname env := by
  obtain ⟨found, others⟩ := vacant
  have host : state.roster.members.any (·.hostname = hostname) = false :=
    any_eq_false.mpr fun member present => by simp [(others member present).1]
  have identifier : state.roster.members.any (·.nodeId = node) = false :=
    any_eq_false.mpr fun member present => by simp [(others member present).2]
  simp [join, checkHostAvailable, checkNotAlreadyMember, found, host, identifier]

theorem join_occupied (occupied : ¬ ∃ state, Vacant store network node hostname state) :
    ∃ error, store.join network node hostname env = (store, some (.error error)) := by
  unfold join checkHostAvailable checkNotAlreadyMember
  cases found : store.networks.lookup network with
  | none => exact ⟨missing, rfl⟩
  | some state =>
    by_cases host : state.roster.members.any (·.hostname = hostname)
    · simp [host]
    · by_cases identifier : state.roster.members.any (·.nodeId = node)
      · obtain ⟨member, _, same⟩ := any_eq_true.mp identifier
        have short := member_short_isSome member
        rw [of_decide_eq_true same] at short
        obtain ⟨text, named⟩ := Option.isSome_iff_exists.mp short
        simp [host, identifier, named]
      · refine absurd ⟨state, found, fun member present => ⟨?_, ?_⟩⟩ occupied
        · exact fun same => host (any_eq_true.mpr ⟨member, present, decide_eq_true same⟩)
        · exact fun same =>
            identifier (any_eq_true.mpr ⟨member, present, decide_eq_true same⟩)

theorem bumped_version_iff (roster : MeshMembership) (now : Int) :
    (roster.bumped now).version.toNat = roster.version.toNat + 1 ↔ roster.version + 1 ≠ 0 := by
  unfold MeshMembership.bumped
  split
  · next full => simp [full]
  · next room =>
    refine iff_of_true ?_ room
    have bound := roster.version.toNat_lt
    rw [← UInt64.toNat_inj, UInt64.toNat_add, UInt64.toNat_one, UInt64.toNat_zero] at room
    rw [UInt64.toNat_add, UInt64.toNat_one]
    omega

/-- An admission into a known network panics, or it adds one member. -/
theorem enrol_found (found : store.networks.lookup network = some state) (node : NodeId)
    (hostname : String) (env : Surroundings) :
    ((VirtualIp.fromNodeId node).isSome = false ∧
        store.enrol network node hostname env = (store, none)) ∨
      ∃ member, (VirtualIp.fromNodeId node).isSome = true ∧
        (store.enrol network node hostname env).2 = some (.ok member) ∧
        (OneMore network member store (store.enrol network node hostname env).1 ↔
          state.roster.version + 1 ≠ 0) := by
  have addresses := build_isSome false node hostname (env.clock 0)
  unfold enrol
  rw [found]
  cases built : MeshMember.newMember node hostname (env.clock 0) with
  | none =>
    refine Or.inl ⟨?_, rfl⟩
    rw [← addresses]
    exact congrArg Option.isSome built
  | some member =>
    refine Or.inr ⟨member, ?_, rfl, ?_⟩
    · rw [← addresses]
      exact congrArg Option.isSome built
    · rw [← bumped_version_iff {state.roster with members := state.roster.members ++ [member]}
        (env.clock 1)]
      constructor
      · rintro ⟨⟨old, new, oldFound, newFound, _, version⟩, _⟩
        rw [found, Option.some.injEq] at oldFound
        rw [AList.lookup_insert, Option.some.injEq] at newFound
        rw [← oldFound, ← newFound] at version
        exact version
      · intro version
        refine ⟨⟨state, _, found, AList.lookup_insert _, rfl, version⟩, fun other ne => ?_⟩
        exact AList.lookup_insert_ne ne

theorem enrol_frame :
    (store.enrol network node hostname env).1.pendingInvites = store.pendingInvites ∧
      (store.enrol network node hostname env).1.pendingRequests = store.pendingRequests := by
  unfold enrol
  split
  · exact ⟨rfl, rfl⟩
  · split <;> exact ⟨rfl, rfl⟩

theorem approve_frame :
    (store.approve network id req env).1.pendingInvites = store.pendingInvites ∧
      (store.approve network id req env).1.pendingRequests = store.pendingRequests := by
  have frame := @enrol_frame store network env req.hostname req.nodeId
  unfold approve
  split
  · next admitted => rwa [admitted] at frame
  · exact frame

variable {admission : Admission} {member : MeshMember}

/-- The growth of a roster is seen in the networks alone. -/
theorem oneMore_congr {before before' after' : InMemoryCoordinator}
    (first : before.networks = before'.networks) (second : after.networks = after'.networks) :
    OneMore network member before after ↔ OneMore network member before' after' := by
  constructor
  · rintro ⟨grown, others⟩
    rw [first, second] at grown others
    exact ⟨grown, others⟩
  · rintro ⟨grown, others⟩
    rw [← first, ← second] at grown others
    exact ⟨grown, others⟩

/-- The invite is there, in time and not yet redeemed. -/
def OpenInvite (store : InMemoryCoordinator) (network : MeshNetworkId) (code : String) (now : Int)
    (invite : InviteCode) : Prop :=
  store.pendingInvites.lookup (network, code) = some invite ∧ invite.isExpired now = false ∧
    invite.redeemed = false

def markRedeemed (store : InMemoryCoordinator) (network : MeshNetworkId) (code : String)
    (invite : InviteCode) : InMemoryCoordinator :=
  {store with pendingInvites :=
    store.pendingInvites.insert (network, code) {invite with redeemed := true}}

theorem claimInvite_open (valid : OpenInvite store network code now invite) :
    store.claimInvite network code now = (markRedeemed store network code invite, .ok ()) := by
  obtain ⟨found, inTime, unused⟩ := valid
  simp [claimInvite, markRedeemed, found, inTime, unused]

theorem claimInvite_closed (closed : ¬ ∃ invite, OpenInvite store network code now invite) :
    ∃ error, store.claimInvite network code now = (store, .error error) := by
  unfold claimInvite
  split
  · exact ⟨_, rfl⟩
  · next invite found =>
    split
    · exact ⟨_, rfl⟩
    · next inTime =>
      split
      · exact ⟨_, rfl⟩
      · next unused =>
        exact absurd ⟨invite, found, Bool.eq_false_of_not_eq_true inTime,
          Bool.eq_false_of_not_eq_true unused⟩ closed

theorem redeem_closed (closed : ¬ ∃ invite, OpenInvite store network code (env.clock 0) invite) :
    ∃ error, store.redeem network code node hostname env = (store, some (.error error)) := by
  obtain ⟨error, claimed⟩ := claimInvite_closed closed
  refine ⟨error, ?_⟩
  rw [redeem, claimed]

theorem unchanged_refl : Unchanged store store :=
  ⟨fun _ => rfl, fun _ => rfl, fun _ => rfl⟩

theorem markRedeemed_changes (valid : OpenInvite store network code now invite) :
    ¬ Unchanged store (markRedeemed store network code invite) := by
  intro same
  have lookup := same.invites (network, code)
  rw [markRedeemed, AList.lookup_insert, valid.1, Option.some.injEq] at lookup
  have flag : true = invite.redeemed := congrArg InviteCode.redeemed lookup
  rw [valid.2.2] at flag
  cases flag

/-- A redeemed invite admits nobody. -/
theorem inviteUsed_of_redeemed (valid : OpenInvite store network code now invite)
    (invites : after.pendingInvites = (markRedeemed store network code invite).pendingInvites)
    (requests : after.pendingRequests = store.pendingRequests) :
    InviteUsed network code store after := by
  have marked : after.pendingInvites.lookup (network, code) =
      some {invite with redeemed := true} := by
    rw [invites]
    exact AList.lookup_insert _
  refine ⟨⟨invite, valid.1, valid.2.2, marked⟩, ?_, ?_, ?_⟩
  · intro key ne
    rw [invites]
    exact AList.lookup_insert_ne ne
  · intro id
    rw [requests]
  · intro node hostname env
    have closed : ¬ ∃ other, OpenInvite after network code (env.clock 0) other := by
      rintro ⟨other, found, _, unused⟩
      rw [marked, Option.some.injEq] at found
      rw [← found] at unused
      cases unused
    obtain ⟨error, refused⟩ := redeem_closed closed
    exact ⟨error, congrArg Prod.snd refused⟩

theorem allOrNothing_ok (granted : result.2 = some (.ok member)) :
    admission.AllOrNothing store result ↔
      OneMore admission.network member store result.1 ∧ admission.Used store result.1 := by
  obtain ⟨after, answer⟩ := result
  obtain rfl : answer = some (.ok member) := granted
  rfl

theorem unchanged_of_allOrNothing {error : CoordinatorError}
    (refused : result.2 = some (.error error)) (whole : admission.AllOrNothing store result) :
    Unchanged store result.1 := by
  obtain ⟨after, answer⟩ := result
  obtain rfl : answer = some (.error error) := refused
  exact whole.1

/-- A call that ends with the enrolment of a node is atomic exactly when the version can count the
new member, or when there is no result at all. -/
theorem allOrNothing_iff_room (admission : Admission) (store : InMemoryCoordinator)
    {base : InMemoryCoordinator} (found : base.networks.lookup admission.network = some state)
    (same : store.networks = base.networks)
    (answer : result.2 = (base.enrol admission.network node hostname env).2)
    (networks : result.1.networks = (base.enrol admission.network node hostname env).1.networks)
    (used : admission.Used store result.1) :
    admission.AllOrNothing store result ↔
      ((VirtualIp.fromNodeId node).isSome → state.roster.version + 1 ≠ 0) := by
  rcases enrol_found found node hostname env with
    ⟨none, panics⟩ | ⟨member, some, granted, grows⟩
  · obtain ⟨after, answered⟩ := result
    rw [panics] at answer
    obtain rfl : answered = .none := answer
    rw [none]
    exact iff_of_true trivial fun impossible => absurd impossible (by decide)
  · rw [allOrNothing_ok (answer.trans granted), oneMore_congr same networks, grows]
    exact ⟨fun whole _ => whole.1, fun room => ⟨room some, used⟩⟩

theorem redeem_atomic_iff_clear :
    (Admission.redeem network code node hostname).Atomic store env ↔
      (Admission.redeem network code node hostname).Clear store env := by
  show Admission.AllOrNothing _ store (store.redeem network code node hostname env) ↔ _
  by_cases valid : ∃ invite, OpenInvite store network code (env.clock 0) invite
  · obtain ⟨invite, valid⟩ := valid
    simp only [redeem, claimInvite_open valid]
    by_cases vacancy : ∃ state, Vacant (markRedeemed store network code invite) network node
        hostname state
    · obtain ⟨state, vacant⟩ := vacancy
      rw [join_vacant vacant]
      have frame := @enrol_frame (markRedeemed store network code invite) network
        (env.later 1) hostname node
      have used := inviteUsed_of_redeemed valid frame.1 frame.2
      refine (allOrNothing_iff_room (.redeem network code node hostname) store vacant.1 rfl rfl
        rfl used).trans ⟨?_, ?_⟩
      · intro room _ _ _ _
        exact ⟨state, vacant.1, vacant.2, room⟩
      · intro clear
        obtain ⟨other, found, _, room⟩ := clear invite valid.1 valid.2.1 valid.2.2
        rwa [Option.some.inj (found.symm.trans vacant.1)] at room
    · obtain ⟨error, refused⟩ := join_occupied vacancy
      rw [refused]
      refine iff_of_false (fun atomic => markRedeemed_changes valid atomic.1) fun clear => ?_
      obtain ⟨state, found, others, _⟩ := clear invite valid.1 valid.2.1 valid.2.2
      exact vacancy ⟨state, found, others⟩
  · obtain ⟨error, refused⟩ := redeem_closed valid
    rw [refused]
    refine iff_of_true ⟨unchanged_refl, fun _ _ => rfl⟩ fun invite found inTime unused => ?_
    exact absurd ⟨invite, found, inTime, unused⟩ valid

/-- The store after a request is taken out. -/
def withoutRequest (store : InMemoryCoordinator) (id : JoinRequestId) : InMemoryCoordinator :=
  {store with pendingRequests := store.pendingRequests.erase id}

section

variable (found : store.pendingRequests.lookup id = some req)
include found

theorem withoutRequest_changes : ¬ Unchanged store (withoutRequest store id) := by
  intro same
  have lookup := same.requests id
  rw [withoutRequest, AList.lookup_erase, found] at lookup
  cases lookup

omit found in
/-- A request of another network goes back to its place. -/
theorem acceptRequest_elsewhere
    (elsewhere : ∀ req ∈ store.pendingRequests.lookup id, req.network ≠ network) :
    ∃ after error, store.acceptRequest network id env = (after, some (.error error)) ∧
      Unchanged store after := by
  unfold acceptRequest takeRequest
  cases found : store.pendingRequests.lookup id with
  | none => exact ⟨_, _, rfl, unchanged_refl⟩
  | some req =>
    dsimp only
    rw [if_pos (elsewhere req found)]
    refine ⟨_, _, rfl, fun _ => rfl, fun _ => rfl, fun other => ?_⟩
    rw [Table.lookup_insert_eq]
    split
    · next same => rw [same, found]
    · next ne => exact AList.lookup_erase_ne ne

theorem acceptRequest_here :
    store.acceptRequest req.network id env =
      if req.status = .pending then
        (withoutRequest store id).approve req.network id req env
      else
        (withoutRequest store id, some (.error (.invalidRequestState req.status.toText
          JoinRequestStatus.pending.toText))) := by
  unfold acceptRequest takeRequest
  rw [found]
  dsimp only
  rw [if_neg (not_not.mpr rfl)]
  by_cases status : req.status = .pending
  · rw [if_neg (not_not.mpr status), if_pos status]
    rfl
  · rw [if_pos status, if_neg status]
    rfl

theorem requestUsed_of_gone
    (requests : after.pendingRequests = (withoutRequest store id).pendingRequests)
    (invites : after.pendingInvites = store.pendingInvites) :
    RequestUsed req.network id store after := by
  have gone : after.pendingRequests.lookup id = none := by
    rw [requests]
    exact AList.lookup_erase _ _
  refine ⟨⟨req, found, rfl, gone⟩, ?_, ?_, ?_⟩
  · intro other ne
    rw [requests]
    exact AList.lookup_erase_ne ne
  · intro key
    rw [invites]
  · intro env
    have nowhere : ∀ other ∈ after.pendingRequests.lookup id, other.network ≠ req.network := by
      rw [gone]
      nofun
    obtain ⟨_, error, refused, _⟩ := acceptRequest_elsewhere nowhere
    exact ⟨error, congrArg Prod.snd refused⟩

end

theorem acceptRequest_atomic_iff_clear :
    (Admission.acceptRequest network id).Atomic store env ↔
      (Admission.acceptRequest network id).Clear store env := by
  show Admission.AllOrNothing _ store (store.acceptRequest network id env) ↔ _
  by_cases here : ∃ req, store.pendingRequests.lookup id = some req ∧ req.network = network
  · obtain ⟨req, found, rfl⟩ := here
    have only : ∀ other, store.pendingRequests.lookup id = some other → other = req := by
      intro other again
      exact Option.some.inj (again.symm.trans found)
    rw [acceptRequest_here found]
    by_cases status : req.status = .pending
    · rw [if_pos status]
      cases known : (withoutRequest store id).networks.lookup req.network with
      | none =>
        simp only [approve, enrol, known]
        refine iff_of_false (fun atomic => withoutRequest_changes found atomic.1) fun clear => ?_
        obtain ⟨_, state, present, _⟩ := clear req found rfl
        exact absurd (present.symm.trans known) (by simp)
      | some state =>
        have frame := @approve_frame (withoutRequest store id) req.network env id req
        have used := requestUsed_of_gone found frame.2 frame.1
        refine (allOrNothing_iff_room (.acceptRequest req.network id) store known rfl
          approve_answer
          (approve_networks id)
          used).trans ⟨?_, ?_⟩
        · intro room other again _
          obtain rfl := only other again
          exact ⟨status, state, known, room⟩
        · intro clear
          obtain ⟨_, other, present, room⟩ := clear req found rfl
          rwa [Option.some.inj (present.symm.trans known)] at room
    · rw [if_neg status]
      refine iff_of_false (fun atomic => withoutRequest_changes found atomic.1) fun clear => ?_
      exact status (clear req found rfl).1
  · have elsewhere : ∀ req ∈ store.pendingRequests.lookup id, req.network ≠ network :=
      fun req found same => here ⟨req, found, same⟩
    obtain ⟨after, error, refused, same⟩ := acceptRequest_elsewhere elsewhere
    rw [refused]
    refine iff_of_true ⟨same, call_answer_congr same⟩ fun req found there => ?_
    exact absurd there (elsewhere req found)

/-- An admission is atomic exactly when nothing fails after its invite or its request is used up. -/
theorem admission_atomic_iff (store : InMemoryCoordinator) (env : Surroundings)
    (admission : Admission) :
    admission.Atomic store env ↔ admission.Clear store env := by
  cases admission with
  | redeem network code node hostname =>
    exact redeem_atomic_iff_clear
  | acceptRequest network id => exact acceptRequest_atomic_iff_clear

/-- The coordinator of the network `office` has handed out one invite. -/
def invitingStore : InMemoryCoordinator :=
  let created := (InMemoryCoordinator.new {}).create ⟨"office"⟩ "office" .closed
    ⟨replicate 64 'a'⟩ {}
  (created.1.insertInvite ⟨"office"⟩ none {secret := [1, 2, 3, 4, 5, 6, 7, 8]}).1

/-- A node redeems the invite under the hostname of the coordinator. -/
theorem admission_not_atomic :
    ¬ ∀ (store : InMemoryCoordinator) (env : Surroundings) (admission : Admission),
      admission.Atomic store env := by
  intro atomic
  let node : NodeId := ⟨replicate 64 'b'⟩
  let code := "0102030405060708"
  have refused : (invitingStore.redeem ⟨"office"⟩ code node "office" {}).2 =
      some (.error (.hostnameTaken "office" "office")) := by
    decide +kernel
  have flags : (invitingStore.redeem ⟨"office"⟩ code node "office" {}).1.pendingInvites.lookup
      (⟨"office"⟩, code) ≠ invitingStore.pendingInvites.lookup (⟨"office"⟩, code) := by
    decide +kernel
  have whole := atomic invitingStore {} (.redeem ⟨"office"⟩ code node "office")
  exact flags ((unchanged_of_allOrNothing refused whole).invites _)

end A3Net.MeshCoordinator
