/-
Each call reads the clock, and the clock stands still during the call.
-/

import A3Net.Construction.Security.Session
import A3Net.Machine.Table

namespace A3Net.Security

/-- A time counts nanoseconds from the Unix epoch. -/
abbrev DateTime := Int

inductive Permission where
  | read | write | delete | execute | admin | full | share | invite

def Permission.includes : Permission → Permission → Bool
  | .full, _ => true
  | .admin, .admin => true
  | .admin, .write => true
  | .admin, .read => true
  | .admin, .delete => true
  | .admin, .execute => true
  | .write, .write => true
  | .write, .read => true
  | .read, .read => true
  | .share, .share => true
  | .share, .read => true
  | .invite, .invite => true
  | _, _ => false

inductive ResourceType where
  | blob | channel | node | network | channelMessage | userProfile | roster | workspace | relay
  | gateway | system
deriving DecidableEq

structure Resource where
  resourceType : ResourceType
  id : String
  owner : Option String

inductive SubjectType where
  | user | role | group | node | service | public_
deriving DecidableEq

structure Subject where
  subjectType : SubjectType
  id : String
  roles : List String
  groups : List String
  nodeId : Option String

inductive AccessLevel where
  | denyAll | allowList | allowAll | custom
deriving DecidableEq

/-- Only the hours of a day are looked at. The other conditions are placeholders that hold. -/
inductive AccessCondition where
  | timeRange (startHour endHour : UInt8) (timezone : Option String)
  | ipRange (cidr : String)
  | minTrustLevel (level : String)
  | geoLocation (allowedCountries : List String)
  | metadataCheck (key operator : String)

def hourOf (now : DateTime) : Nat := (now / 3600000000000 % 24).toNat

def AccessCondition.evaluate (now : DateTime) : AccessCondition → Bool
  | .timeRange startHour endHour _ =>
    let hour := hourOf now
    if startHour ≤ endHour then startHour.toNat ≤ hour && hour ≤ endHour.toNat
    else startHour.toNat ≤ hour || hour ≤ endHour.toNat
  | .ipRange _ => true
  | .minTrustLevel _ => true
  | .geoLocation _ => true
  | .metadataCheck _ _ => true

structure AclEntry where
  id : String
  subject : Subject
  resource : Resource
  permissions : List Permission
  grant : Bool
  expiresAt : Option DateTime
  conditions : List AccessCondition

namespace AclEntry

def isValid (entry : AclEntry) (now : DateTime) : Bool :=
  match entry.expiresAt with
  | some expires =>
    if expires < now then false else entry.conditions.all fun each => each.evaluate now
  | none => entry.conditions.all fun each => each.evaluate now

def grantsPermission (entry : AclEntry) (permission : Permission) (now : DateTime) : Bool :=
  if entry.isValid now then
    entry.grant && entry.permissions.any fun each => each.includes permission
  else false

end AclEntry

structure AclPolicy where
  id : String
  defaultAccessLevel : AccessLevel
  entries : List AclEntry
  enabled : Bool

namespace AclPolicy

def subjectMatches (entrySubject requestSubject : Subject) : Bool :=
  if entrySubject.subjectType = requestSubject.subjectType &&
      entrySubject.id = requestSubject.id then true
  else if requestSubject.roles.any fun role => entrySubject.roles.contains role then true
  else if requestSubject.groups.any fun group => entrySubject.groups.contains group then true
  else if entrySubject.subjectType = .public_ then true
  else if entrySubject.subjectType = .node then
    match entrySubject.nodeId, requestSubject.nodeId with
    | some entryNode, some requestNode => entryNode = requestNode
    | _, _ => false
  else false

/-- The match of the owners comes after a match of the same wildcard without them. -/
def resourceMatches (entryResource requestResource : Resource) : Bool :=
  if entryResource.resourceType = requestResource.resourceType &&
      entryResource.id = requestResource.id then true
  else if entryResource.resourceType = requestResource.resourceType &&
      entryResource.id = "*" then true
  else if entryResource.id = "*" &&
      entryResource.resourceType = requestResource.resourceType then
    match entryResource.owner, requestResource.owner with
    | some owner, some requestOwner => owner = requestOwner
    | _, _ => false
  else false

def entryMatches (subject : Subject) (resource : Resource) (now : DateTime) (entry : AclEntry) :
    Bool :=
  subjectMatches entry.subject subject && resourceMatches entry.resource resource &&
    entry.isValid now

/-- The loop over the matching entries ends at the first one that decides. -/
def evaluate (permission : Permission) (now : DateTime) (granted : Bool) : List AclEntry → Bool
  | [] => granted
  | entry :: rest =>
    if entry.grantsPermission permission now then true
    else if entry.grant then
      if entry.permissions.any fun each => each.includes permission then true
      else evaluate permission now granted rest
    else
      if entry.permissions.any fun each => each.includes permission then false
      else evaluate permission now granted rest

def checkAccess (policy : AclPolicy) (subject : Subject) (resource : Resource)
    (permission : Permission) (now : DateTime) : Bool :=
  if !policy.enabled then policy.defaultAccessLevel = .allowAll
  else
    let matching := policy.entries.filter (entryMatches subject resource now)
    if matching.isEmpty then policy.defaultAccessLevel = .allowAll
    else evaluate permission now (policy.defaultAccessLevel = .allowAll) matching

end AclPolicy

structure AccessDecision where
  granted : Bool
  reason : String
  matchedEntry : Option String
  evaluatedAt : DateTime
  policyId : String

namespace AccessDecision

variable (policyId reason : String)

def grantedBy (entryId : Option String) (now : DateTime) :
    AccessDecision :=
  ⟨true, reason, entryId, now, policyId⟩

def deniedBy (now : DateTime) : AccessDecision :=
  ⟨false, reason, none, now, policyId⟩

end AccessDecision

structure AccessControl where
  policies : Table String AclPolicy := ∅
  defaultPolicy : Option String := none
  maxEntriesPerPolicy : Nat := 10000

namespace AccessControl

variable (control : AccessControl)

/-- The bound on the entries of a policy bounds the number of policies. -/
def addPolicy (policy : AclPolicy) : Except SecurityError Unit × AccessControl :=
  if control.maxEntriesPerPolicy ≤ control.policies.keys.length then
    (.error (.internal "Maximum policy count reached"), control)
  else (.ok (), {control with policies := control.policies.insert policy.id policy})

def setDefaultPolicy (policyId : String) : Except SecurityError Unit × AccessControl :=
  if (control.policies.lookup policyId).isNone then
    (.error (.invalidConfig s!"Policy {policyId} not found"), control)
  else (.ok (), {control with defaultPolicy := some policyId})

def removePolicy (policyId : String) : AccessControl :=
  { control with
    policies := control.policies.erase policyId
    defaultPolicy :=
      if control.defaultPolicy = some policyId then none else control.defaultPolicy }

/-- The owner is granted everything before any entry is looked at. -/
def checkAccess (subject : Subject) (resource : Resource) (permission : Permission)
    (now : DateTime) : AccessDecision :=
  match control.defaultPolicy with
  | none => .deniedBy "none" "No default policy set" now
  | some policyId =>
    match control.policies.lookup policyId with
    | none => .deniedBy "none" "Default policy not found" now
    | some policy =>
      if resource.owner = some subject.id then
        .grantedBy policyId "Subject is resource owner" none now
      else
        match policy.entries.find? fun entry =>
            AclPolicy.entryMatches subject resource now entry &&
              entry.grantsPermission permission now with
        | some entry =>
          .grantedBy policyId "Permission granted by ACL entry" (some entry.id) now
        | none =>
          if policy.defaultAccessLevel = .allowAll then
            .grantedBy policyId "Allowed by default access level" none now
          else .deniedBy policyId "Denied by default access level" now

end AccessControl
end A3Net.Security
