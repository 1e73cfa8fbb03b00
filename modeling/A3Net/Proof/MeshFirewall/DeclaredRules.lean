/-
The label of all peers is resolved to the node of zeros, so its rules match that node only.
-/

import A3Net.Construction.MeshFirewall.Declarative
import A3Net.Machine.Fallible
import A3Net.Proof.MeshFirewall.FlowTracking

namespace A3Net.MeshFirewall

open Machine FirewallEngine List

/-- One token of a label allows or denies packets. -/
structure Declared where
  action : Action
  label : List Char
  token : List Char

def declaredTokens (action : Action) (entry : List Char × List Char) : List Declared :=
  ((parseTokenList entry.2).toOption.getD []).map fun token => ⟨action, entry.1, token⟩

def declaredNetwork (entry : List Char × NetworkSpec) : List Declared :=
  entry.2.allows.entries.flatMap (declaredTokens .allow) ++
    entry.2.denies.entries.flatMap (declaredTokens .deny)

/-- The entries stand in the order of the maps, and a network allows before it denies. -/
def FirewallSpec.declared (spec : FirewallSpec) : List Declared :=
  spec.networks.flatMap declaredNetwork

def Declared.wildcard (declared : Declared) : Bool := declared.label = ['*']

variable (debug : List Char → String) (resolver : PeerResolver)

def Declared.matchesTraffic (declared : Declared) (packet : Packet) : Bool :=
  match parseToken debug declared.token with
  | .ok (proto, port) => proto.matches packet.proto && port.matches packet.port
  | .error _ => false

/-- The label stands for every peer or for the peer of the packet. -/
def Declared.concerns (packet : Packet) (declared : Declared) : Bool :=
  (declared.wildcard || resolver declared.label = some packet.peer) &&
    declared.matchesTraffic debug packet

variable (engine : FirewallEngine) (packet : Packet)

/-- The first of the entries that concerns the packet decides about it. -/
def declaredDecision (entries : List Declared) :
    Decision :=
  firstMatch (Declared.concerns debug resolver packet)
    (fun declared => Decision.ofAction declared.action)
    (Decision.ofAction (engine.defaultAction .in_ packet.proto)) entries

/-- For the code the label of all peers is one more name that is resolved. -/
def Declared.resolves (declared : Declared) : Bool :=
  resolver declared.label = some packet.peer && declared.matchesTraffic debug packet

def resolvedDecision (entries : List Declared) :
    Decision :=
  firstMatch (Declared.resolves debug resolver packet)
    (fun declared => Decision.ofAction declared.action)
    (Decision.ofAction (engine.defaultAction .in_ packet.proto)) entries

/-- No flow in the table that is not expired has the triple of the packet. -/
def FirewallEngine.Untracked (now : Nat) : Prop :=
  ∀ probe, inboundToConnprobe packet = some probe →
    ∀ entry ∈ engine.conntrack.entries.values, probe.matches entry.key = true →
      engine.conntrack.expired entry now = true

/-- This is the node that the label of all peers is resolved to. -/
def wildcardNode : NodeId := ⟨replicate 64 '0'⟩

theorem staticPeerResolver_wildcard (named : Table (List Char) NodeId) :
    staticPeerResolver named ['*'] = some wildcardNode := by
  rw [staticPeerResolver, if_pos rfl]
  decide +kernel

section Rules

variable {debug} {resolver}

/-- The rule was made for the entry. -/
def MadeFor (debug : List Char → String) (resolver : PeerResolver) (rule : Rule)
    (declared : Declared) : Prop :=
  ∃ proto port peer id, parseToken debug declared.token = .ok (proto, port) ∧
    resolver declared.label = some peer ∧
    rule = { inboundRule declared.action proto port peer with id }

variable {draft next : Draft} {action : Action}

theorem addToken_extends {label token : List Char}
    (added : addToken debug resolver action label draft token = .ok next) :
    ∃ new, next.rules.rules = draft.rules.rules ++ new ∧
      List.Forall₂ (MadeFor debug resolver) new [⟨action, label, token⟩] := by
  unfold addToken at added
  cases parsed : parseToken debug token with
  | error error =>
    rw [parsed] at added
    cases added
  | ok pair =>
    obtain ⟨proto, port⟩ := pair
    cases resolved : resolver label with
    | none =>
      rw [parsed] at added
      simp only [resolved, bind, Except.bind] at added
      cases added
    | some peer =>
      rw [parsed] at added
      simp only [resolved, bind, Except.bind, RuleSet.push] at added
      split at added
      · cases added
      · next rules pushed =>
        have same : next.rules = rules := by
          rw [← Except.ok.inj added]
          cases action <;> rfl
        split at pushed
        · cases pushed
        · rw [same, ← Option.some.inj pushed]
          exact ⟨_, rfl, List.Forall₂.cons ⟨proto, port, peer, _, parsed, resolved, rfl⟩
            List.Forall₂.nil⟩

theorem addLabel_extends {network : List Char} {entry : List Char × List Char}
    (added : addLabel debug resolver network action draft entry = .ok next) :
    ∃ new, next.rules.rules = draft.rules.rules ++ new ∧
      List.Forall₂ (MadeFor debug resolver) new (declaredTokens action entry) := by
  unfold addLabel at added
  unfold declaredTokens
  cases parsed : parseTokenList entry.2 with
  | error error =>
    rw [parsed] at added
    cases added
  | ok tokens =>
    rw [parsed] at added
    have each := foldlM_extends (fun draft => draft.rules.rules)
      (fun token => [Declared.mk action entry.1 token]) (fun _ _ _ => addToken_extends) added
    rw [← map_eq_flatMap] at each
    exact each

theorem addNetwork_extends {entry : List Char × NetworkSpec}
    (added : addNetwork debug resolver draft entry = .ok next) :
    ∃ new, next.rules.rules = draft.rules.rules ++ new ∧
      List.Forall₂ (MadeFor debug resolver) new (declaredNetwork entry) := by
  unfold addNetwork at added
  cases allowing : entry.2.allows.entries.foldlM (addLabel debug resolver entry.1 .allow) draft with
  | error error =>
    rw [allowing] at added
    cases added
  | ok allowed =>
    rw [allowing] at added
    obtain ⟨allows, allowsView, allowsMade⟩ := foldlM_extends (fun draft => draft.rules.rules)
      (declaredTokens .allow) (fun _ _ _ => addLabel_extends) allowing
    obtain ⟨denies, deniesView, deniesMade⟩ := foldlM_extends (fun draft => draft.rules.rules)
      (declaredTokens .deny) (fun _ _ _ => addLabel_extends) added
    refine ⟨allows ++ denies, ?_, rel_append allowsMade deniesMade⟩
    rw [deniesView, allowsView, append_assoc]

/-- The rules of a draft were made for the entries of the specification, one for one. -/
theorem FirewallSpec.rules_madeFor {spec : FirewallSpec}
    (built : spec.networks.foldlM (addNetwork debug resolver) {} = .ok draft) :
    List.Forall₂ (MadeFor debug resolver) draft.rules.rules spec.declared := by
  obtain ⟨new, view, made⟩ := foldlM_extends (fun draft => draft.rules.rules) declaredNetwork
    (fun _ _ _ => addNetwork_extends) built
  have all : draft.rules.rules = new := view
  rw [all]
  exact made

variable {packet : Packet} {engine : FirewallEngine}

/-- A rule matches the packets whose peer its label is resolved to. -/
theorem MadeFor.verdict {rule : Rule} {declared : Declared}
    (made : MadeFor debug resolver rule declared) (inbound : packet.direction = .in_) :
    rule.matches packet.direction packet.proto packet.port packet.peer =
        declared.resolves debug resolver packet ∧
      (ruleVerdict rule).1 = Decision.ofAction declared.action := by
  obtain ⟨proto, port, peer, id, parsed, resolved, rfl⟩ := made
  obtain ⟨action, label, token⟩ := declared
  simp only [Declared.resolves, Declared.matchesTraffic, parsed, resolved, inbound]
  cases action
  · simp [inboundRule, Rule.allow, Rule.matches, PeerSpec.isNode, ruleVerdict, Bool.and_comm]
  · simp [inboundRule, Rule.matches, PeerSpec.isNode, ruleVerdict, Bool.and_comm]

theorem FirewallEngine.decideByRules_fst {entries : List Declared}
    (made : List.Forall₂ (MadeFor debug resolver) engine.rules.rules entries)
    (inbound : packet.direction = .in_) :
    (engine.decideByRules packet).1 = resolvedDecision debug resolver engine packet entries := by
  rw [decideByRules, apply_firstMatch Prod.fst, inbound]
  refine firstMatch_forall₂ (fun rule declared related => ?_) made
  have verdict := related.verdict inbound
  rw [inbound] at verdict
  exact verdict

/-- A packet of no tracked flow is decided by the rules. -/
theorem FirewallEngine.decide_of_untracked {now : Nat} (untracked : engine.Untracked packet now)
    (reading : Reading ConnEntry) :
    (engine.decide reading packet now).1 = engine.decideByRules packet := by
  unfold decide
  split
  · next probe _ probed =>
    have missed : (engine.conntrack.lookupInbound reading probe now).1 = false := by
      rw [← Bool.not_eq_true]
      intro found
      obtain ⟨entry, stored, same, alive⟩ :=
        engine.conntrack.lookupInbound_sound reading found
      have expired := untracked probe probed entry stored same
      rw [alive] at expired
      cases expired
    simp only [missed, Bool.false_eq_true, if_false]
    rfl
  · rfl

end Rules

variable {named : Table (List Char) NodeId} (engine : FirewallEngine) {packet : Packet}
  (entries : List Declared)

/-- For the node of zeros the code and the specification agree about the label of all peers. -/
theorem resolvedDecision_of_wildcardNode (zeros : packet.peer = wildcardNode) :
    resolvedDecision debug (staticPeerResolver named) engine packet entries =
      declaredDecision debug (staticPeerResolver named) engine packet entries := by
  apply firstMatch_congr
  intro declared _
  unfold Declared.resolves Declared.concerns Declared.wildcard
  by_cases all : declared.label = ['*']
  · rw [all, staticPeerResolver_wildcard, zeros]
    simp
  · simp [all]

/-- For another node the entries with the label of all peers are as good as absent. -/
theorem resolvedDecision_of_ne_wildcardNode (other : packet.peer ≠ wildcardNode) :
    resolvedDecision debug (staticPeerResolver named) engine packet entries =
      declaredDecision debug (staticPeerResolver named) engine packet
        (entries.filter fun declared => !declared.wildcard) := by
  rw [declaredDecision, ← firstMatch_and]
  apply firstMatch_congr
  intro declared _
  unfold Declared.resolves Declared.concerns Declared.wildcard
  by_cases all : declared.label = ['*']
  · rw [all, staticPeerResolver_wildcard]
    simp [other.symm]
  · simp [all]

/-- A specification that is refused leaves the engine. A specification that is applied decides about
an inbound packet of no tracked flow as it says exactly when the packet comes from the node of zeros
or the entries for all peers make no difference. -/
theorem declared_decision_iff (debug : List Char → String) (named : Table (List Char) NodeId)
    (spec : FirewallSpec) (engine : FirewallEngine) :
    match spec.apply debug (staticPeerResolver named) engine with
    | (.error _, after) => after = engine
    | (.ok _, after) => ∀ packet reading now, packet.direction = .in_ → after.Untracked packet now →
        ((after.decide reading packet now).1.1 =
            declaredDecision debug (staticPeerResolver named) after packet spec.declared ↔
          packet.peer = wildcardNode ∨
            declaredDecision debug (staticPeerResolver named) after packet
                (spec.declared.filter fun declared => !declared.wildcard) =
              declaredDecision debug (staticPeerResolver named) after packet spec.declared) := by
  unfold FirewallSpec.apply
  cases built : spec.networks.foldlM (addNetwork debug (staticPeerResolver named)) {} with
  | error error => rfl
  | ok draft =>
    intro packet reading now inbound untracked
    rw [decide_of_untracked untracked, decideByRules_fst (spec.rules_madeFor built) inbound]
    by_cases zeros : packet.peer = wildcardNode
    · rw [resolvedDecision_of_wildcardNode debug _ _ zeros]
      exact ⟨fun _ => Or.inl zeros, fun _ => rfl⟩
    · rw [resolvedDecision_of_ne_wildcardNode debug _ _ zeros]
      exact (or_iff_right zeros).symm

/-- All peers may use one port. -/
def sampleSpec : FirewallSpec where
  networks := [(['n'], ⟨⟨[(['*'], ['t', 'c', 'p', ':', '2', '2'])], pairwise_singleton _ _⟩,
    ⟨[], List.Pairwise.nil⟩⟩)]
  sorted := pairwise_singleton _ _

def sampleEngine : FirewallEngine := ⟨{}, {}, .new {}⟩

def samplePacket : Packet := ⟨.in_, 6, 22, ⟨replicate 64 'a'⟩⟩

/-- The specification allows the packet to all peers, and the engine denies it. -/
theorem wildcard_not_applied :
    let applied := sampleSpec.apply String.ofList (staticPeerResolver ∅) sampleEngine
    applied.1 = .ok ⟨1, 0⟩ ∧ applied.2.Untracked samplePacket 0 ∧
      (applied.2.decide (.plain _) samplePacket 0).1.1 = .deny ∧
      declaredDecision String.ofList (staticPeerResolver ∅) applied.2 samplePacket
        sampleSpec.declared = .allow := by
  refine ⟨by decide +kernel, ?_, by decide +kernel, by decide +kernel⟩
  intro probe _ entry stored
  exact absurd stored not_mem_nil

end A3Net.MeshFirewall
