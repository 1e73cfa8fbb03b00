/-
The maps of a specification are lists in the order of their keys. The debug format of texts is a
parameter.
-/

import A3Net.Construction.MeshFirewall.Engine
import A3Net.Machine.OrderedMap

namespace A3Net.MeshFirewall

open Machine

/-- A label names a peer, and a value lists protocols with ports. -/
structure LabelMap where
  entries : List (List Char × List Char)
  sorted : OrderedMap.Sorted entries

structure NetworkSpec where
  allows : LabelMap
  denies : LabelMap

structure FirewallSpec where
  networks : List (List Char × NetworkSpec)
  sorted : OrderedMap.Sorted networks

structure ApplyReport where
  allows : Nat := 0
  denies : Nat := 0
deriving DecidableEq

inductive DeclarativeError where
  | parse (text : String)
  | invalidRule (network : List Char) (text : String)
  | unknownPeer (label : List Char)
  | tooManyRules
deriving DecidableEq

/-- A resolver finds the node that a label names. -/
abbrev PeerResolver := List Char → Option NodeId

/-- The label of all peers names the node of zeros. -/
def staticPeerResolver (named : Table (List Char) NodeId) : PeerResolver := fun label =>
  if label = ['*'] then (NodeId.fromHex (List.replicate 64 '0')).toOption else named.lookup label

variable (debug : List Char → String)

def parseTokenList (raw : List Char) : Except String (List (List Char)) :=
  .ok (((raw.splitOn ',').map trim).filter fun token => !token.isEmpty)

def splitOnce (separator : Char) (text : List Char) : Option (List Char × List Char) :=
  match text.dropWhile (· ≠ separator) with
  | [] => none
  | _ :: after => some (text.takeWhile (· ≠ separator), after)

def parseProto (text : List Char) : Except DeclarativeError ProtoSpec :=
  if text = ['t', 'c', 'p'] then .ok .tcp
  else if text = ['u', 'd', 'p'] then .ok .udp
  else if text = ['i', 'c', 'm', 'p'] then .ok .icmp
  else if text = ['a', 'n', 'y'] then .ok .any
  else .error (.invalidRule ['?'] ("unknown protocol " ++ debug text))

def parsePort (text : List Char) : Except DeclarativeError PortSpec :=
  if text = ['a', 'n', 'y'] then .ok .any
  else
    match (parseUnsigned text).filter (· < 2 ^ 16) with
    | some port => .ok (.single port.toUInt16)
    | none => .error (.invalidRule ['?'] ("invalid port " ++ debug text))

def parseToken (token : List Char) : Except DeclarativeError (ProtoSpec × PortSpec) :=
  match splitOnce ':' token with
  | none => .error (.invalidRule ['?'] ("missing ':' in " ++ debug token))
  | some (protoText, portText) => do
      let proto ← parseProto debug (trim protoText)
      let port ← parsePort debug (trim portText)
      .ok (proto, port)

variable (resolver : PeerResolver)

/-- The rules and the counts are built up together. -/
structure Draft where
  rules : RuleSet := {}
  report : ApplyReport := {}

def Draft.count (draft : Draft) (rules : RuleSet) : Action → Draft
  | .allow => ⟨rules, { draft.report with allows := draft.report.allows + 1 }⟩
  | .deny => ⟨rules, { draft.report with denies := draft.report.denies + 1 }⟩

/-- An allowing rule is made for all peers first, and then it gets its peer. -/
def inboundRule (action : Action) (proto : ProtoSpec) (port : PortSpec) (peer : NodeId) : Rule :=
  match action with
  | .allow => { Rule.allow .in_ proto port with peer := ⟨some peer⟩ }
  | .deny => ⟨⟨0⟩, .in_, .deny, proto, port, ⟨some peer⟩⟩

def addToken (action : Action) (label : List Char) (draft : Draft) (token : List Char) :
    Except DeclarativeError Draft := do
  let (proto, port) ← parseToken debug token
  match resolver label with
  | none => .error (.unknownPeer label)
  | some peer =>
    match draft.rules.push (inboundRule action proto port peer) with
    | none => .error .tooManyRules
    | some rules => .ok (draft.count rules action)

def addLabel (network : List Char) (action : Action) (draft : Draft)
    (entry : List Char × List Char) : Except DeclarativeError Draft :=
  match parseTokenList entry.2 with
  | .error error => .error (.invalidRule network error)
  | .ok tokens => tokens.foldlM (addToken debug resolver action entry.1) draft

def addNetwork (draft : Draft) (entry : List Char × NetworkSpec) :
    Except DeclarativeError Draft := do
  let allowed ← entry.2.allows.entries.foldlM (addLabel debug resolver entry.1 .allow) draft
  entry.2.denies.entries.foldlM (addLabel debug resolver entry.1 .deny) allowed

/-- The rules of the engine are replaced when all new rules are made. -/
def FirewallSpec.apply (spec : FirewallSpec) (engine : FirewallEngine) :
    Except DeclarativeError ApplyReport × FirewallEngine :=
  match spec.networks.foldlM (addNetwork debug resolver) {} with
  | .error error => (.error error, engine)
  | .ok draft => (.ok draft.report, engine.replaceRules draft.rules)

end A3Net.MeshFirewall
