import A3Net.Construction.MeshFirewall.Conntrack
import A3Net.Machine.FirstMatch

namespace A3Net.MeshFirewall

open Machine

structure DefaultPolicy where
  inboundTcpUdp : Action := .deny
  inboundIcmp : Action := .allow
  outbound : Action := .allow

structure Packet where
  direction : Direction
  proto : UInt8
  port : UInt16
  peer : NodeId

/-- A packet of another protocol belongs to no flow. -/
def inboundToConnprobe (packet : Packet) : Option InboundProbe :=
  if packet.proto = 6 then some ⟨.tcp, packet.peer, packet.port⟩
  else if packet.proto = 17 then some ⟨.udp, packet.peer, packet.port⟩
  else none

structure FirewallEngine where
  rules : RuleSet
  defaultPolicy : DefaultPolicy
  conntrack : ConnTracker

namespace FirewallEngine

variable (engine : FirewallEngine)

def replaceRules (rules : RuleSet) : FirewallEngine := { engine with rules }

def defaultAction (direction : Direction) (proto : UInt8) : Action :=
  match direction with
  | .in_ =>
    if proto = 1 ∨ proto = 58 then engine.defaultPolicy.inboundIcmp
    else engine.defaultPolicy.inboundTcpUdp
  | .out => engine.defaultPolicy.outbound

def ruleVerdict (rule : Rule) : Decision × DecisionReason :=
  (Decision.ofAction rule.action,
    match rule.action with
    | .allow => .allowRule rule.id
    | .deny => .denyRule rule.id)

def defaultVerdict (action : Action) : Decision × DecisionReason :=
  (Decision.ofAction action,
    match action with
    | .allow => .defaultAllow
    | .deny => .defaultDeny)

/-- The first rule that matches decides, and the default policy decides without one. -/
def decideByRules (packet : Packet) : Decision × DecisionReason :=
  firstMatch (fun rule => rule.matches packet.direction packet.proto packet.port packet.peer)
    ruleVerdict (defaultVerdict (engine.defaultAction packet.direction packet.proto))
    engine.rules.rules

/-- A packet of a tracked flow is let in without a look at the rules. -/
def decide (reading : Reading ConnEntry) (packet : Packet) (now : Nat) :
    (Decision × DecisionReason) × FirewallEngine :=
  match packet.direction, inboundToConnprobe packet with
  | .in_, some probe =>
    let (found, conntrack) := engine.conntrack.lookupInbound reading probe now
    let looked := { engine with conntrack }
    if found then ((.allow, .conntrackAllow), looked)
    else (looked.decideByRules packet, looked)
  | _, _ => (engine.decideByRules packet, engine)

end FirewallEngine
end A3Net.MeshFirewall
