/-
The policy asks the first entry that decides a permission, and the access control asks for any entry
that grants it.
-/

import A3Net.Construction.Security.Acl
import A3Net.Machine.FirstMatch
import A3Net.Machine.Run

namespace A3Net.Security

open Machine AclEntry List AclPolicy

variable (subject : Subject) (resource : Resource) (permission : Permission) (now : DateTime)

/-- The entry says something about the permission. -/
def AclEntry.concerns (entry : AclEntry) : Bool :=
  entry.permissions.any fun each => each.includes permission

/-- These entries match the request and say something about the permission. -/
def AclPolicy.deciding (policy : AclPolicy) : List AclEntry :=
  policy.entries.filter fun entry =>
    AclPolicy.entryMatches subject resource now entry && entry.concerns permission

variable {entry : AclEntry}

theorem AclEntry.grantsPermission_eq (valid : entry.isValid now) :
    entry.grantsPermission permission now = (entry.grant && entry.concerns permission) := by
  rw [grantsPermission, if_pos valid]
  rfl

theorem AclPolicy.isValid_of_matches (matched : entryMatches subject resource now entry) :
    entry.isValid now := by
  rw [entryMatches, Bool.and_eq_true] at matched
  exact matched.2

theorem AclPolicy.evaluate_eq {granted : Bool} {entries : List AclEntry}
    (valid : ∀ entry ∈ entries, entry.isValid now) :
    evaluate permission now granted entries =
      firstMatch (concerns permission) grant granted entries := by
  induction entries with
  | nil => rfl
  | cons entry rest ih =>
    have first := valid entry mem_cons_self
    have later := ih (forall_mem_cons.mp valid).2
    have concerned : (entry.permissions.any fun each => each.includes permission) =
        entry.concerns permission := rfl
    rw [evaluate, firstMatch, grantsPermission_eq permission now first, concerned, later]
    cases entry.grant <;> cases entry.concerns permission <;> rfl

variable {policy : AclPolicy}

/-- An enabled policy grants what its first deciding entry grants. -/
theorem AclPolicy.checkAccess_enabled (enabled : policy.enabled = true) :
    policy.checkAccess subject resource permission now =
      (((policy.deciding subject resource permission now).head?).map grant).getD
        (decide (policy.defaultAccessLevel = .allowAll)) := by
  have filtered : (policy.entries.filter (entryMatches subject resource now)).filter
      (concerns permission) = policy.deciding subject resource permission now := by
    rw [filter_filter]
    apply filter_congr
    intro entry _
    exact Bool.and_comm _ _
  have valid : ∀ entry ∈ policy.entries.filter (entryMatches subject resource now),
      entry.isValid now := fun entry member =>
    isValid_of_matches subject resource now (mem_filter.mp member).2
  rw [checkAccess, enabled]
  simp only [Bool.not_true, Bool.false_eq_true, if_false]
  split
  · next empty =>
    rw [isEmpty_iff.mp empty] at filtered
    rw [← filtered]
    rfl
  · rw [evaluate_eq permission now valid, firstMatch_eq_head, filtered]

variable {control : AccessControl}

/-- The access control looks for any deciding entry that grants. -/
theorem AccessControl.checkAccess_granted {id : String} (default : control.defaultPolicy = some id)
    (found : control.policies.lookup id = some policy) (stranger : resource.owner ≠ some subject.id)
    :
    (control.checkAccess subject resource permission now).granted =
      ((policy.deciding subject resource permission now).any grant ||
        decide (policy.defaultAccessLevel = .allowAll)) := by
  have same : ∀ entry, (entryMatches subject resource now entry &&
      entry.grantsPermission permission now) = true ↔
        (entryMatches subject resource now entry && entry.concerns permission) = true ∧
          entry.grant = true := by
    intro entry
    by_cases matched : entryMatches subject resource now entry = true
    · have valid := isValid_of_matches subject resource now matched
      rw [grantsPermission_eq permission now valid, matched]
      simp [and_comm]
    · simp [matched]
  simp only [checkAccess, default, found, stranger, if_false]
  split
  · next entry search =>
    have passed := find?_some search
    have granting := (same entry).mp passed
    have any : (policy.deciding subject resource permission now).any grant = true :=
      any_eq_true.mpr ⟨entry, mem_filter.mpr ⟨mem_of_find?_eq_some search, granting.1⟩, granting.2⟩
    rw [any]
    rfl
  · next search =>
    have none : (policy.deciding subject resource permission now).any grant = false := by
      rw [any_eq_false]
      intro entry member grants
      obtain ⟨stored, decides⟩ := mem_filter.mp member
      exact find?_eq_none.mp search entry stored ((same entry).mpr ⟨decides, grants⟩)
    rw [none, Bool.false_or]
    split
    · next level => simp [AccessDecision.grantedBy, level]
    · next level => simp [AccessDecision.deniedBy, level]

/-- A denying entry that comes first is not opposed by another entry or by the default, and a
disabled policy grants nothing that its default does not grant. -/
structure AclPolicy.Unopposed (policy : AclPolicy) : Prop where
  enabled : policy.enabled = true →
    ∀ entry, (policy.deciding subject resource permission now).head? = some entry →
      entry.grant = false → policy.defaultAccessLevel ≠ .allowAll ∧
        ∀ other ∈ policy.deciding subject resource permission now, other.grant = false
  disabled : policy.enabled = false → policy.defaultAccessLevel ≠ .allowAll →
    ∀ other ∈ policy.deciding subject resource permission now, other.grant = false

theorem AclEntry.any_grant_eq_false_iff (entries : List AclEntry) :
    entries.any grant = false ↔ ∀ other ∈ entries, other.grant = false := by
  simp [any_eq_false]

theorem AclPolicy.unopposed_iff_of_disabled (disabled : policy.enabled = false) :
    policy.Unopposed subject resource permission now ↔
      (policy.defaultAccessLevel ≠ .allowAll →
        (policy.deciding subject resource permission now).any grant = false) := by
  rw [any_grant_eq_false_iff]
  constructor
  · intro unopposed
    exact unopposed.disabled disabled
  · intro denies
    exact ⟨fun enabled => Bool.noConfusion (enabled.symm.trans disabled), fun _ => denies⟩

theorem AclPolicy.unopposed_iff_of_enabled (enabled : policy.enabled = true) :
    policy.Unopposed subject resource permission now ↔
      ∀ entry, (policy.deciding subject resource permission now).head? = some entry →
        entry.grant = false → policy.defaultAccessLevel ≠ .allowAll ∧
          (policy.deciding subject resource permission now).any grant = false := by
  simp only [any_grant_eq_false_iff]
  constructor
  · intro unopposed
    exact unopposed.enabled enabled
  · intro denies
    exact ⟨fun _ => denies, fun disabled => Bool.noConfusion (enabled.symm.trans disabled)⟩

theorem check_access_agrees_iff {control : AccessControl} {id : String} {policy : AclPolicy}
    (default : control.defaultPolicy = some id)
    (found : control.policies.lookup id = some policy)
    (stranger : resource.owner ≠ some subject.id) :
    (control.checkAccess subject resource permission now).granted =
        policy.checkAccess subject resource permission now ↔
      policy.Unopposed subject resource permission now := by
  rw [control.checkAccess_granted subject resource permission now default found stranger]
  cases enabled : policy.enabled with
  | false =>
    rw [AclPolicy.checkAccess, if_pos (by rw [enabled]; rfl),
      unopposed_iff_of_disabled subject resource permission now enabled]
    by_cases level : policy.defaultAccessLevel = .allowAll
    · simp [level]
    · simp only [level, decide_false, Bool.or_false, not_false_eq_true, forall_const, ne_eq]
  | true =>
    rw [checkAccess_enabled subject resource permission now enabled,
      unopposed_iff_of_enabled subject resource permission now enabled]
    -- The first deciding entry settles the policy, so the cases are the shapes of that list.
    cases policy.deciding subject resource permission now with
    | nil => simp
    | cons entry rest =>
      cases grants : entry.grant with
      | true => simp [grants]
      | false =>
        simp only [head?_cons, Option.map_some, Option.getD_some, grants, Bool.or_eq_false_iff,
          decide_eq_false_iff_not, Option.some.injEq, forall_eq', forall_const]
        exact and_comm

def sampleSubject : Subject := ⟨.user, "alice", [], [], none⟩

def sampleResource : Resource := ⟨.blob, "blob-1", none⟩

def sampleEntry (grant : Bool) : AclEntry :=
  ⟨"entry", sampleSubject, sampleResource, [.read], grant, none, []⟩

/-- Reading is denied first and granted after that. -/
def deniedFirst : AclPolicy := ⟨"policy", .allowList, [sampleEntry false, sampleEntry true], true⟩

def grantedFirst : AclPolicy := ⟨"policy", .allowList, [sampleEntry true, sampleEntry false], true⟩

def controlOf (policy : AclPolicy) : AccessControl where
  policies := AList.insert policy.id policy ∅
  defaultPolicy := some policy.id

theorem grantedFirst_agrees :
    ((controlOf grantedFirst).checkAccess sampleSubject sampleResource .read 0).granted =
      grantedFirst.checkAccess sampleSubject sampleResource .read 0 := by
  refine (check_access_agrees_iff sampleSubject sampleResource .read 0 rfl
    (AList.lookup_insert _) (by decide)).mpr ⟨fun _ entry first denies => ?_, fun disabled => ?_⟩
  · obtain rfl : sampleEntry true = entry := Option.some.inj first
    cases denies
  · cases disabled

theorem check_access_disagrees :
    ¬ ∀ (control : AccessControl) (id : String) (policy : AclPolicy) (subject : Subject)
      (resource : Resource) (permission : Permission) (now : DateTime),
      control.defaultPolicy = some id → control.policies.lookup id = some policy →
        resource.owner ≠ some subject.id →
          (control.checkAccess subject resource permission now).granted =
            policy.checkAccess subject resource permission now := by
  intro agrees
  have same := agrees (controlOf deniedFirst) "policy" deniedFirst sampleSubject sampleResource
    .read 0 rfl (AList.lookup_insert _) (by decide)
  revert same
  decide

/-- These calls change the policies. -/
inductive AdminCall where
  | add (policy : AclPolicy)
  | setDefault (policyId : String)
  | remove (policyId : String)

def AccessControl.administer (control : AccessControl) : AdminCall → AccessControl
  | .add policy => (control.addPolicy policy).2
  | .setDefault policyId => (control.setDefaultPolicy policyId).2
  | .remove policyId => control.removePolicy policyId

/-- The default policy is one of the policies. -/
def AccessControl.DefaultPresent (control : AccessControl) : Prop :=
  ∀ id, control.defaultPolicy = some id → id ∈ control.policies

theorem AccessControl.DefaultPresent.administer (present : control.DefaultPresent)
    (call : AdminCall) : (control.administer call).DefaultPresent := by
  cases call with
  | add policy =>
    simp only [AccessControl.administer, addPolicy]
    split
    · exact present
    · intro id default
      exact (AList.mem_insert _).mpr (Or.inr (present id default))
  | setDefault policyId =>
    simp only [AccessControl.administer, setDefaultPolicy]
    split
    · exact present
    · next known =>
      intro id default
      obtain rfl : policyId = id := Option.some.inj default
      rw [Option.isNone_iff_eq_none, AList.lookup_eq_none, not_not] at known
      exact known
  | remove policyId =>
    intro id default
    simp only [AccessControl.administer, removePolicy] at default ⊢
    split at default
    · cases default
    · next other =>
      refine AList.mem_erase.mpr ⟨fun same => other (same ▸ default), present id default⟩

/-- A check never misses the default policy, whatever calls came before it. -/
theorem AccessControl.always_defaultPresent (control : AccessControl)
    (start : control.defaultPolicy = none) (calls : List AdminCall) :
    Always AccessControl.administer AccessControl.DefaultPresent control calls := by
  have present : control.DefaultPresent := by
    intro id default
    rw [start] at default
    cases default
  exact (guarded_true _ control calls).always _
    (fun _ call holds _ => AccessControl.DefaultPresent.administer holds call) present

theorem default_removed :
    Always AccessControl.administer AccessControl.DefaultPresent
      {controlOf grantedFirst with defaultPolicy := none}
      [.setDefault "policy", .remove "policy", .setDefault "policy"] :=
  AccessControl.always_defaultPresent _ rfl _

end A3Net.Security
