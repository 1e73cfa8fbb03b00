import A3Net.Cryptography.Encoding

namespace A3Net.Pairing

open Cryptography

/-- A capability is a stable tag of 16 bits. -/
@[ext] structure Capability where
  code : UInt16
deriving DecidableEq

namespace Capability

def chat : Capability := ⟨0x0001⟩
def filesRead : Capability := ⟨0x0010⟩
def filesWrite : Capability := ⟨0x0011⟩
def sync : Capability := ⟨0x0020⟩
def presence : Capability := ⟨0x0030⟩
def gossipPublish : Capability := ⟨0x0040⟩
def docsRead : Capability := ⟨0x0050⟩
def docsWrite : Capability := ⟨0x0051⟩
def allKnown : Capability := ⟨0x00FF⟩

def name (cap : Capability) : String :=
  if cap = chat then "chat"
  else if cap = filesRead then "files.read"
  else if cap = filesWrite then "files.write"
  else if cap = sync then "sync"
  else if cap = presence then "presence"
  else if cap = gossipPublish then "gossip.publish"
  else if cap = docsRead then "docs.read"
  else if cap = docsWrite then "docs.write"
  else if cap = allKnown then "all-known"
  else "unknown"

end Capability

/-- A set that comes from the wire is whatever list the peer sent. -/
structure CapabilitySet where
  caps : List Capability

namespace CapabilitySet

instance : Membership Capability CapabilitySet where
  mem set cap := cap ∈ set.caps

instance (cap : Capability) (set : CapabilitySet) : Decidable (cap ∈ set) :=
  inferInstanceAs (Decidable (cap ∈ set.caps))

def empty : CapabilitySet := ⟨[]⟩

/-- The search halves the list until one capability is left. -/
def binarySearch (cap : Capability) : Nat → List Capability → Bool
  | rounds + 1, first :: second :: rest =>
    let caps := first :: second :: rest
    let half := caps.length / 2
    binarySearch cap rounds
      (if cap.code < (caps.getD half cap).code then caps.take (caps.length - half)
        else caps.drop half)
  | _, caps => caps.head? = some cap

/-- A list that is not sorted may hide a capability from the search. -/
def contains (set : CapabilitySet) (cap : Capability) : Bool :=
  binarySearch cap set.caps.length set.caps

/-- A code of 64 or more has no bit. -/
def setBit (mask : Nat) (cap : Capability) : Nat :=
  if cap.code.toNat < 64 then mask ||| 1 <<< cap.code.toNat else mask

/-- The mask is an unsigned word of 64 bits. -/
def bitmask (set : CapabilitySet) : Nat := set.caps.foldl setBit 0

/-- The mask is printed with sixteen digits. -/
def canonical (set : CapabilitySet) : List Char :=
  ['c', 'a', 'p', 's', ':'] ++ hexChars (bigEndian 8 set.bitmask)

end CapabilitySet
end A3Net.Pairing
