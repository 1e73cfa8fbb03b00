import A3Net.Construction.Types.NodeId

namespace A3Net.MeshFirewall

def maxRules : Nat := 1024

inductive Direction where
  | in_
  | out
deriving DecidableEq

inductive ProtoSpec where
  | icmp
  | tcp
  | udp
  | any

def ProtoSpec.matches (spec : ProtoSpec) (proto : UInt8) : Bool :=
  match spec with
  | .any => true
  | .icmp => proto = 1 || proto = 58
  | .tcp => proto = 6
  | .udp => proto = 17

inductive PortSpec where
  | any
  | single (port : UInt16)
  | range (low high : UInt16)

/-- A range whose ends are in the wrong order matches no port. -/
def PortSpec.matches (spec : PortSpec) (port : UInt16) : Bool :=
  match spec with
  | .any => true
  | .single own => own = port
  | .range low high => low ≤ high && (low ≤ port && port ≤ high)

inductive Action where
  | allow
  | deny

structure PeerSpec where
  node : Option NodeId

def PeerSpec.any : PeerSpec := ⟨none⟩

def PeerSpec.isNode (spec : PeerSpec) (node : NodeId) : Bool :=
  match spec.node with
  | none => true
  | some own => own = node

structure RuleId where
  index : Nat

structure Rule where
  id : RuleId
  direction : Direction
  action : Action
  proto : ProtoSpec
  port : PortSpec
  peer : PeerSpec

def Rule.allow (direction : Direction) (proto : ProtoSpec) (port : PortSpec) : Rule :=
  ⟨⟨0⟩, direction, .allow, proto, port, .any⟩

/-- The source address of a packet is not looked at. -/
def Rule.matches (rule : Rule) (direction : Direction) (proto : UInt8) (port : UInt16)
    (peer : NodeId) : Bool :=
  rule.direction = direction && rule.proto.matches proto && rule.port.matches port &&
    rule.peer.isNode peer

/-- The first rule of the list is checked first. -/
structure RuleSet where
  rules : List Rule := []

/-- A rule gets the place that it takes as its identifier. -/
def RuleSet.push (set : RuleSet) (rule : Rule) : Option RuleSet :=
  if maxRules ≤ set.rules.length then none
  else some ⟨set.rules ++ [{ rule with id := ⟨set.rules.length⟩ }]⟩

inductive Decision where
  | allow
  | deny
deriving DecidableEq

def Decision.ofAction : Action → Decision
  | .allow => .allow
  | .deny => .deny

inductive DecisionReason where
  | allowRule (rule : RuleId)
  | denyRule (rule : RuleId)
  | defaultAllow
  | defaultDeny
  | conntrackAllow
  | conntrackFull

end A3Net.MeshFirewall
