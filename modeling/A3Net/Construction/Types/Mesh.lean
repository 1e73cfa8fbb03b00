/-
Times are nanoseconds of the clock.
-/

import A3Net.Construction.Types.NodeId
import Mathlib.Data.UInt

namespace A3Net

open Cryptography Machine

/-- The leading bytes of a text. A cut inside a character panics. -/
def takeBytes : Nat → List Char → Option (List Char)
  | 0, _ => some []
  | _ + 1, [] => some []
  | size + 1, char :: rest =>
    if char.utf8Size ≤ size + 1 then
      (takeBytes (size + 1 - char.utf8Size) rest).map (char :: ·)
    else none

/-- The short form is for people to read. -/
def NodeId.short (node : NodeId) : Option String :=
  (takeBytes 12 node.text).map String.ofList

structure MeshNetworkId where
  text : String
deriving DecidableEq

inductive MeshPolicy where
  | openToAll
  | closed
deriving DecidableEq

/-- The addresses are the value of the short one and the bytes of the long one. -/
structure VirtualIp where
  ipv4 : UInt32
  ipv6 : Bytes
deriving DecidableEq

/-- This is the value of `100.64.0.0`. -/
def meshIpv4Base : UInt32 := 0x64400000

def meshIpv4Count : UInt32 := (1 : UInt32) <<< (32 - 10)

def meshIpv6PrefixBytes : Bytes := [0x02, 0x00]

/-- An identifier with fewer than four bytes panics. -/
def VirtualIp.ipv4FromNodeId (node : NodeId) : Option UInt32 :=
  match node.asBytes with
  | some (first :: second :: third :: fourth :: _) =>
    let offset := first.toUInt32 + (second.toUInt32 <<< 8) + (third.toUInt32 <<< 16) +
      (fourth.toUInt32 <<< 24)
    some (meshIpv4Base + offset % meshIpv4Count)
  | _ => none

/-- An identifier with fewer than sixteen bytes panics. -/
def VirtualIp.ipv6FromNodeId (node : NodeId) : Option Bytes := do
  let bytes ← node.asBytes
  if 16 ≤ bytes.length then some (meshIpv6PrefixBytes ++ (bytes.drop 2).take 14) else none

def VirtualIp.fromNodeId (node : NodeId) : Option VirtualIp := do
  let ipv4 ← ipv4FromNodeId node
  let ipv6 ← ipv6FromNodeId node
  return ⟨ipv4, ipv6⟩

/-- Every member has the addresses of its own identifier. -/
structure MeshMember where
  nodeId : NodeId
  hostname : String
  virtualIp : VirtualIp
  isCoordinator : Bool
  admittedAt : Int
  derived : VirtualIp.fromNodeId nodeId = some virtualIp
deriving DecidableEq

/-- An identifier without addresses panics. -/
def MeshMember.build (isCoordinator : Bool) (node : NodeId) (hostname : String) (now : Int) :
    Option MeshMember :=
  match derived : VirtualIp.fromNodeId node with
  | some virtualIp => some ⟨node, hostname, virtualIp, isCoordinator, now, derived⟩
  | none => none

def MeshMember.newCoordinator : NodeId → String → Int → Option MeshMember := build true

def MeshMember.newMember : NodeId → String → Int → Option MeshMember := build false

structure MeshMembership where
  networkId : MeshNetworkId
  version : UInt64
  members : List MeshMember
  signature : String
  publishedAt : Int

namespace MeshMembership

def newUnsigned (network : MeshNetworkId) (members : List MeshMember) (now : Int) :
    MeshMembership := ⟨network, 1, members, "", now⟩

/-- The version stays at the largest number. -/
def bumped (roster : MeshMembership) (now : Int) : MeshMembership :=
  {roster with version := if roster.version + 1 = 0 then roster.version else roster.version + 1,
               publishedAt := now}

end MeshMembership

structure InviteCode where
  networkId : MeshNetworkId
  code : String
  expiresAt : Int
  redeemed : Bool
deriving DecidableEq

namespace InviteCode

/-- The secret is what the random generator gives. -/
def new (network : MeshNetworkId) (ttl : Nat) (secret : Bytes) (now : Int) : InviteCode :=
  ⟨network, toHex secret, now + ttl, false⟩

def isExpired (invite : InviteCode) (now : Int) : Bool := decide (invite.expiresAt ≤ now)

end InviteCode
end A3Net
