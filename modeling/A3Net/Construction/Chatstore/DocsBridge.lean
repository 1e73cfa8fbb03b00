/-
Each read and each write of the document is one step, and the calls take their steps in any order.
-/

import A3Net.Construction.Types.NodeId
import A3Net.Cryptography.Encoding

namespace A3Net.Chatstore

open Cryptography Machine

def maxAppendRetries : Nat := 32

structure Message where
  id : String
  conversationId : String
  senderId : String
  receiverId : Option String
  content : String
  timestamp : Int
  sequence : Option Nat
  replyTo : Option String
  integrityHash : Option String
  isEdited : Bool
  editedAt : Option String

inductive DocsBridgeError where
  | invalid (error : IdError)
  | iroh (text : String)
  | serde
  | notOpen (conversation : String)
  | emptySenderId
  | sequenceContention

def seqLen : Nat := 4

def encodeSeq (value : Nat) : Bytes := littleEndian seqLen value

def decodeSeq (bytes : Bytes) : Option Nat :=
  if bytes.length ≠ seqLen then none else some (ofLittleEndian bytes)

def msgKey (sender : String) (seq : Nat) : List Char :=
  "msg/".toList ++ sender.toList ++ '/' :: padded 8 seq

def seqKey (sender : String) : List Char := "seq/".toList ++ sender.toList

def saturatingSucc (value : Nat) : Nat := min (value + 1) (2 ^ 32 - 1)

/-- These are the calls for one conversation and one sender. The encoder is that of `serde_json` for
a stored message. -/
structure Appends (calls : Nat) where
  conversation : String
  sender : String
  message : Fin calls → Message
  sameSender : ∀ call, (message call).senderId = sender
  encodeMessage : Message → Option Bytes

/-- What a call does next. -/
inductive Phase where
  | waiting
  | reading (attempt : Nat)
  | writing (attempt next : Nat) (payload : Bytes)
  | pointing (attempt next : Nat)
  | checking (attempt next : Nat)
  | returned (result : Except DocsBridgeError Nat)

/-- An entry of the document refers to a blob, and its bytes stand here. -/
structure Bridge (calls : Nat) where
  doc : List Char → Option Bytes
  phase : Fin calls → Phase

/-- A refused operation ends the call. A write that lands and is reported as an error is a step
before the refusal. -/
inductive Event (calls : Nat) where
  | start (call : Fin calls) (opened : Bool)
  | advance (call : Fin calls)
  | refuse (call : Fin calls) (text : String)

namespace Bridge

variable {calls : Nat}

def initial (doc : List Char → Option Bytes) : Bridge calls := ⟨doc, fun _ => .waiting⟩

variable (bridge : Bridge calls)

def goto (call : Fin calls) (phase : Phase) : Bridge calls :=
  {bridge with phase := Function.update bridge.phase call phase}

/-- The last writer wins. -/
def setHash (key : List Char) (bytes : Bytes) : Bridge calls :=
  {bridge with doc := Function.update bridge.doc key (some bytes)}

/-- A pointer that cannot be decoded counts as absent. -/
def readSenderSeq (sender : String) : Nat :=
  ((bridge.doc (seqKey sender)).bind decodeSeq).getD 0

end Bridge

namespace Appends

variable {calls : Nat} (appends : Appends calls) (call : Fin calls)

def stamp (next : Nat) : Message :=
  {appends.message call with
    conversationId := appends.conversation
    sequence := some next}

def check (opened : Bool) : Except DocsBridgeError Unit :=
  if (appends.message call).senderId.isEmpty then .error .emptySenderId
  else
    match validateId "sender_id" (appends.message call).senderId with
    | .error error => .error (.invalid error)
    | .ok () => if opened then .ok () else .error (.notOpen appends.conversation)

/-- The loop runs again or gives up. -/
def retry (attempt : Nat) : Phase :=
  if attempt + 1 < maxAppendRetries then .reading (attempt + 1)
  else .returned (.error .sequenceContention)

variable (bridge : Bridge calls)

def advance (call : Fin calls) : Bridge calls :=
  match bridge.phase call with
  | .reading attempt =>
    let next := saturatingSucc (bridge.readSenderSeq appends.sender)
    match appends.encodeMessage (appends.stamp call next) with
    | some payload => bridge.goto call (.writing attempt next payload)
    | none => bridge.goto call (.returned (.error .serde))
  | .writing attempt next payload =>
    (bridge.setHash (msgKey appends.sender next) payload).goto call (.pointing attempt next)
  | .pointing attempt next =>
    (bridge.setHash (seqKey appends.sender) (encodeSeq next)).goto call (.checking attempt next)
  | .checking attempt next =>
    if next ≤ bridge.readSenderSeq appends.sender then
      bridge.goto call (.returned (.ok next))
    else bridge.goto call (retry attempt)
  | .waiting | .returned _ => bridge

def step : Event calls → Bridge calls
  | .start call opened =>
    match bridge.phase call with
    | .waiting =>
      match appends.check call opened with
      | .ok () => bridge.goto call (.reading 0)
      | .error error => bridge.goto call (.returned (.error error))
    | _ => bridge
  | .advance call => appends.advance bridge call
  | .refuse call text =>
    match bridge.phase call with
    | .waiting | .returned _ => bridge
    | _ => bridge.goto call (.returned (.error (.iroh text)))

end Appends
end A3Net.Chatstore
