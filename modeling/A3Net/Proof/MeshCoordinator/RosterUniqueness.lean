import A3Net.Construction.MeshCoordinator.Store
import A3Net.Machine.Run

namespace A3Net.MeshCoordinator

open Machine InMemoryCoordinator List

/-- No two members share an identifier, and no two share a hostname. -/
def UniqueMembers (members : List MeshMember) : Prop :=
  (members.map MeshMember.nodeId).Nodup ∧ (members.map MeshMember.hostname).Nodup
deriving Decidable

variable (networks : Table MeshNetworkId NetworkState)

/-- Every roster has unique members. -/
def UniqueRosters : Prop :=
  ∀ network state, networks.lookup network = some state → UniqueMembers state.roster.members

variable {node : NodeId} {hostname : String}

theorem build_fields {isCoordinator : Bool} {now : Int} {member : MeshMember}
    (built : MeshMember.build isCoordinator node hostname now = some member) :
    member.nodeId = node ∧ member.hostname = hostname := by
  unfold MeshMember.build at built
  split at built
  · rw [Option.some.injEq] at built
    rw [← built]
    exact ⟨rfl, rfl⟩
  · cases built

theorem build_isSome (isCoordinator : Bool) (node : NodeId) (hostname : String) (now : Int) :
    (MeshMember.build isCoordinator node hostname now).isSome =
      (VirtualIp.fromNodeId node).isSome := by
  unfold MeshMember.build
  split <;> simp_all

theorem uniqueMembers_concat (members : List MeshMember) (last : MeshMember)
    (unique : UniqueMembers members) :
    UniqueMembers (members ++ [last]) ↔
      ∀ member ∈ members, member.nodeId ≠ last.nodeId ∧ member.hostname ≠ last.hostname := by
  obtain ⟨nodes, hosts⟩ := unique
  unfold UniqueMembers
  rw [map_append, map_append, map_singleton, map_singleton,
    ← concat_eq_append, ← concat_eq_append, nodup_concat, nodup_concat]
  simp only [nodes, hosts, and_true, mem_map, not_exists, not_and, forall_and]

variable {network : MeshNetworkId}

/-- A changed roster is the only one that has to be looked at. -/
theorem uniqueRosters_insert {networks : Table MeshNetworkId NetworkState}
    (unique : UniqueRosters networks) {state : NetworkState} :
    UniqueRosters (networks.insert network state) ↔ UniqueMembers state.roster.members := by
  constructor
  · intro all
    exact all network state (AList.lookup_insert networks)
  · intro members other found
    rw [Table.lookup_insert_eq]
    split
    · rintro ⟨⟩
      exact members
    · exact unique other found

variable {store : InMemoryCoordinator} {env : Surroundings}

theorem kick_uniqueRosters (unique : UniqueRosters store.networks) :
    UniqueRosters (store.kick network node env).1.networks := by
  unfold kick
  split
  · exact unique
  · next state found =>
    dsimp only
    split
    · exact unique
    · obtain ⟨nodes, hosts⟩ := unique network state found
      refine (uniqueRosters_insert unique).mpr ⟨?_, ?_⟩
      · exact nodes.sublist (filter_sublist.map _)
      · exact hosts.sublist (filter_sublist.map _)

/-- The newcomer, if it has addresses, differs from each member in identifier and in hostname. -/
def Newcomer (network : MeshNetworkId)
    (node : NodeId) (hostname : String) : Prop :=
  ∀ state, networks.lookup network = some state → (VirtualIp.fromNodeId node).isSome →
    ∀ member ∈ state.roster.members, member.nodeId ≠ node ∧ member.hostname ≠ hostname

theorem enrol_uniqueRosters_iff (unique : UniqueRosters store.networks) :
    UniqueRosters (store.enrol network node hostname env).1.networks ↔
      Newcomer store.networks network node hostname := by
  unfold enrol Newcomer
  split
  · next absent => simp [absent, unique]
  · next state found =>
    have addresses := build_isSome false node hostname (env.clock 0)
    rw [found]
    split
    · next failed =>
      have none : (VirtualIp.fromNodeId node).isSome = false := by
        rw [← addresses]
        exact congrArg Option.isSome failed
      simp [none, unique]
    · next member built =>
      obtain ⟨sameNode, sameHost⟩ := build_fields built
      have some : (VirtualIp.fromNodeId node).isSome = true := by
        rw [← addresses]
        exact congrArg Option.isSome built
      rw [uniqueRosters_insert unique]
      show UniqueMembers (state.roster.members ++ [member]) ↔ _
      rw [uniqueMembers_concat _ _ (unique network state found), sameNode, sameHost]
      simp [some]

theorem approve_networks (id : JoinRequestId) {req : JoinRequest} :
    (store.approve network id req env).1.networks =
      (store.enrol network req.nodeId req.hostname env).1.networks := by
  unfold approve
  split
  · next admitted => rw [admitted]
  · rfl

theorem claimInvite_networks (store : InMemoryCoordinator) (network : MeshNetworkId)
    (code : String) (now : Int) :
    (store.claimInvite network code now).1.networks = store.networks := by
  unfold claimInvite
  repeat' split
  all_goals rfl

theorem takeRequest_networks (store : InMemoryCoordinator) (network : MeshNetworkId)
    (id : JoinRequestId) : (store.takeRequest network id).1.networks = store.networks := by
  unfold takeRequest
  repeat' split
  all_goals rfl

/-- Only the last part of an admission adds a member to a roster that is not new. -/
theorem begin_uniqueRosters (unique : UniqueRosters store.networks) {call : Call} :
    UniqueRosters (store.begin env call).1.networks := by
  cases call with
  | create network displayName policy creator =>
    show UniqueRosters (store.create network displayName policy creator env).1.networks
    unfold create
    split
    · exact unique
    · split
      · exact unique
      · refine (uniqueRosters_insert unique).mpr ?_
        simp [UniqueMembers, MeshMembership.bumped, MeshMembership.newUnsigned]
  | kick network node => exact kick_uniqueRosters unique
  | mintInvite | requestJoin => exact unique
  | redeem network code node hostname =>
    show UniqueRosters (store.claimInvite network code (env.clock 0)).1.networks
    rw [claimInvite_networks]
    exact unique
  | acceptRequest network id =>
    show UniqueRosters (store.takeRequest network id).1.networks
    rw [takeRequest_networks]
    exact unique
  | denyRequest network id =>
    show UniqueRosters (store.denyRequest network id).1.networks
    unfold denyRequest
    repeat' split
    all_goals exact unique

/-- A part that adds a member adds a newcomer. -/
def Remainder.Admissible : Remainder → Prop
  | .enrol network node hostname => Newcomer networks network node hostname
  | .approve network _ req => Newcomer networks network req.nodeId req.hostname
  | _ => True

theorem resume_uniqueRosters_iff (unique : UniqueRosters store.networks) {remainder : Remainder} :
    UniqueRosters (store.resume env remainder).1.networks ↔
      remainder.Admissible store.networks := by
  cases remainder with
  | enrol network node hostname =>
    exact enrol_uniqueRosters_iff unique
  | approve network id req =>
    show UniqueRosters (store.approve network id req env).1.networks ↔ _
    rw [approve_networks]
    exact enrol_uniqueRosters_iff unique
  | insertInvite | checkHost | checkMember => exact iff_of_true unique trivial
  | insertRequest network node hostname note =>
    show UniqueRosters (store.insertRequest network node hostname note env).1.networks ↔ _
    unfold insertRequest
    split <;> exact iff_of_true unique trivial

variable {Task : Type} [DecidableEq Task] (tasks : Tasks Task)

/-- When the event runs the last part of an admission, it finds no member with the identifier or
with the hostname that it adds. -/
def Tasks.Admissible : Event Task → Prop
  | .start _ _ _ => True
  | .resume task _ =>
    ∀ remainder, tasks.remainder task = some remainder → remainder.Admissible tasks.store.networks

theorem step_uniqueRosters_iff (event : Event Task)
    (unique : UniqueRosters tasks.store.networks) :
    UniqueRosters (tasks.step event).store.networks ↔ tasks.Admissible event := by
  cases event with
  | start task call env =>
    refine iff_of_true ?_ trivial
    cases pending : tasks.remainder task with
    | none =>
      simp only [Tasks.step, pending]
      exact begin_uniqueRosters unique
    | some remainder =>
      simp only [Tasks.step, pending]
      exact unique
  | resume task env =>
    cases pending : tasks.remainder task with
    | none => simp [Tasks.step, Tasks.Admissible, pending, unique]
    | some remainder =>
      simp only [Tasks.step, Tasks.Admissible, pending, Option.some.injEq, forall_eq']
      exact resume_uniqueRosters_iff unique

/-- Rosters stay unique in exactly the runs in which each admission ends with a newcomer. -/
theorem rosters_unique_iff (config : CoordinatorConfig) (events : List (Event Task)) :
    Always Tasks.step (fun tasks : Tasks Task => UniqueRosters tasks.store.networks)
        (.idle config) events ↔
      Guarded Tasks.step Tasks.Admissible (.idle config) events := by
  apply always_iff_guarded
  · exact step_uniqueRosters_iff
  · intro network state found
    cases found

/-- A node asks to join under the hostname of the coordinator, and its request is accepted. -/
def acceptTakenHostname : List (Event Unit) :=
  let network : MeshNetworkId := ⟨"office"⟩
  [.start () (.create network "office" .closed ⟨List.replicate 64 'a'⟩) {},
    .start () (.requestJoin network ⟨List.replicate 64 'b'⟩ "office" "") {}, .resume () {},
    .start () (.acceptRequest network 0) {}, .resume () {}]

theorem rosters_not_unique :
    ¬ ∀ (config : CoordinatorConfig) (events : List (Event Unit)),
      Always Tasks.step (fun tasks : Tasks Unit => UniqueRosters tasks.store.networks)
        (.idle config) events := by
  intro always
  have final := (always {} acceptTakenHostname).final
  have twice : ((run Tasks.step (.idle {}) acceptTakenHostname).store.networks.lookup
      ⟨"office"⟩).any (fun state => ¬ UniqueMembers state.roster.members) := by
    decide +kernel
  obtain ⟨state, found, repeated⟩ := (Option.any_eq_true _ _).mp twice
  exact of_decide_eq_true repeated (final _ state found)

end A3Net.MeshCoordinator
