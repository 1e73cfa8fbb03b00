/-
The pending replacement and the refresh time of a bucket are left out, because no operation of the
table reads them to place a contact.
-/

import A3Net.Construction.Types.NodeId
import A3Net.Machine.Buckets

namespace A3Net.Dht

open Machine

def kbucketSize : Nat := 20

/-- Times are readings of the clock in nanoseconds. -/
structure Contact (Address : Type) where
  id : NodeId
  addrs : List Address
  lastContacted : Nat
  lastSeen : Nat
  trusted : Bool

variable {Address : Type}

def Contact.isAlive (contact : Contact Address) (timeout now : Nat) : Bool :=
  now - contact.lastSeen < timeout

/-- The oldest contact stands first. -/
structure KBucket (Address : Type) where
  contacts : List (Contact Address) := []

inductive InsertError where
  | bucketFull
  | selfContact

namespace KBucket

def find (bucket : KBucket Address) (id : NodeId) : Option (Contact Address) :=
  bucket.contacts.find? fun contact => contact.id = id

/-- The first contact with this identifier gives way, and its times stay. -/
def replaceExisting (contact : Contact Address) : List (Contact Address) → List (Contact Address)
  | [] => []
  | existing :: rest =>
    if existing.id = contact.id then
      {contact with
        lastSeen := existing.lastSeen, lastContacted := existing.lastContacted} :: rest
    else existing :: replaceExisting contact rest

variable (bucket : KBucket Address)

def insert (contact : Contact Address) : Except InsertError Unit × KBucket Address :=
  if (bucket.find contact.id).isSome then (.ok (), ⟨replaceExisting contact bucket.contacts⟩)
  else if kbucketSize ≤ bucket.contacts.length then (.error .bucketFull, bucket)
  else (.ok (), ⟨bucket.contacts ++ [contact]⟩)

/-- The contact moves to the back. -/
def markSeen (id : NodeId) (now : Nat) : KBucket Address :=
  match bucket.find id with
  | none => bucket
  | some contact =>
    ⟨bucket.contacts.eraseP (fun other => other.id = id) ++ [{contact with lastSeen := now}]⟩

def remove (id : NodeId) : Bool × KBucket Address :=
  ((bucket.find id).isSome, ⟨bucket.contacts.eraseP fun contact => contact.id = id⟩)

/-- The clock is read once for each contact. -/
def dead (timeout : Nat) (clock : Nat → Nat) : List NodeId :=
  bucket.contacts.zipIdx.filterMap fun entry =>
    if entry.1.isAlive timeout (clock entry.2) then none else some entry.1.id

def removeAll (ids : List NodeId) : KBucket Address :=
  ids.foldl (fun bucket id => (bucket.remove id).2) bucket

end KBucket

structure RoutingTable (Address : Type) where
  localId : NodeId
  buckets : Fin 256 → KBucket Address
  bootstrapNodes : List (Contact Address)
  contactTimeout : Nat

namespace RoutingTable

def new (localId : NodeId) : RoutingTable Address where
  localId
  buckets _ := {}
  bootstrapNodes := []
  contactTimeout := 600 * 10 ^ 9

variable (table : RoutingTable Address) (id : NodeId)

def setLocalId : RoutingTable Address :=
  {table with localId := id}

def addBootstrapNode (contact : Contact Address) : RoutingTable Address :=
  {table with bootstrapNodes := table.bootstrapNodes ++ [{contact with trusted := true}]}

/-- The bits of a byte are tried from the highest one. -/
def highestBit (byte : UInt8) : Option Nat :=
  [7, 6, 5, 4, 3, 2, 1, 0].find? fun bit => byte.toNat >>> bit &&& 1 = 1

/-- The index counts the bytes in front of the distance. -/
def indexFrom (index : Nat) : Bytes → Nat
  | [] => 255
  | byte :: rest =>
    match highestBit byte with
    | some bit => min (index * 8 + (7 - bit) + 1) 255
    | none => indexFrom (index + 1) rest

/-- The same node has the last index. -/
def bucketIndex (first second : NodeId) : Nat := indexFrom 0 (first.xorDistance second)

def bucketFor : Fin 256 :=
  Fin.ofNat 256 (min (bucketIndex table.localId id) 255)

/-- The bucket for this identifier is replaced. -/
def setBucketFor (bucket : KBucket Address) : RoutingTable Address :=
  {table with buckets := Function.update table.buckets (table.bucketFor id) bucket}

variable (table : RoutingTable Address)

def insert (contact : Contact Address) :
    Except InsertError Unit × RoutingTable Address :=
  if contact.id = table.localId then (.error .selfContact, table)
  else
    let (result, bucket) := (table.buckets (table.bucketFor contact.id)).insert contact
    (result, table.setBucketFor contact.id bucket)

def markSeen (id : NodeId) (now : Nat) : RoutingTable Address :=
  table.setBucketFor id ((table.buckets (table.bucketFor id)).markSeen id now)

def remove (id : NodeId) : Bool × RoutingTable Address :=
  let (removed, bucket) := (table.buckets (table.bucketFor id)).remove id
  (removed, table.setBucketFor id bucket)

/-- Distances are compared as byte strings. -/
def nearer (target : NodeId) (first second : Contact Address) : Bool :=
  first.id.xorDistance target ≤ second.id.xorDistance target

def closest (target : NodeId) (k : Nat) : List (Contact Address) :=
  let allContacts := (List.finRange 256).flatMap (fun index => (table.buckets index).contacts) ++
    table.bootstrapNodes
  let others := allContacts.filter fun contact => contact.id ≠ table.localId
  (others.mergeSort (nearer target)).take k

/-- Each bucket has its own readings of the clock. -/
def removeDeadContacts (clock : Fin 256 → Nat → Nat) : List NodeId × RoutingTable Address :=
  let dead index := (table.buckets index).dead table.contactTimeout (clock index)
  ((List.finRange 256).flatMap dead,
    {table with buckets := fun index => (table.buckets index).removeAll (dead index)})

end RoutingTable

/-- These are the operations that change the table. -/
inductive TableCall (Address : Type) where
  | setLocalId (id : NodeId)
  | addBootstrapNode (contact : Contact Address)
  | insert (contact : Contact Address)
  | markSeen (id : NodeId) (now : Nat)
  | remove (id : NodeId)
  | removeDeadContacts (clock : Fin 256 → Nat → Nat)

def RoutingTable.step (table : RoutingTable Address) : TableCall Address → RoutingTable Address
  | .setLocalId id => table.setLocalId id
  | .addBootstrapNode contact => table.addBootstrapNode contact
  | .insert contact => (table.insert contact).2
  | .markSeen id now => table.markSeen id now
  | .remove id => (table.remove id).2
  | .removeDeadContacts clock => (table.removeDeadContacts clock).2

end A3Net.Dht
