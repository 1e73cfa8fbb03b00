import A3Net.Construction.Transport.Frame
import A3Net.Construction.Types.ContentHash
import A3Net.Construction.Types.Range

namespace A3Net.Transport

open Cryptography

inductive Message where
  | get (hash : String) (range : RangeSpec)
  | close
  | meta_ (sizeBytes : UInt64) (chunkCount : UInt32)
  | chunk (index : UInt32) (offset : UInt64) (data : String)
  | done (blake3 : String)
  | error (msg : String)

/-- These are the JSON, base64 and debug formats that the crate takes from its libraries. -/
structure Wire where
  fromSlice : Bytes → Except String Message
  toVec : Message → Except String Bytes
  decodeBase64 : String → Except String Bytes
  debug : Message → String

def Message.fromFrame (wire : Wire) (frame : Frame) : Except TransportError Message :=
  match wire.fromSlice frame.bytes with
  | .ok msg => .ok msg
  | .error e => .error (.decode s!"decode message: {e}")

def Message.intoFrame (wire : Wire) (msg : Message) : Except TransportError Frame :=
  match wire.toVec msg with
  | .ok bytes => .ok ⟨bytes⟩
  | .error e => .error (.decode s!"encode message: {e}")

/-- The operating system answers each file operation and the request with an optional error. -/
structure Host where
  send : Option TransportError := none
  create : Option String := none
  write : Nat → Option String := fun _ => none
  flush : Option String := none
  removes : Bool := true

/-- The hasher holds the bytes it has read, and the file holds the bytes written. -/
structure FetchState where
  total : UInt64 := 0
  expectedSize : Option UInt64 := none
  hasher : Bytes := []
  file : Bytes := []
  writes : Nat := 0

/-- A fetch ends with its result and with the file at the destination, if there is one. -/
structure Outcome where
  result : Except TransportError UInt64
  file : Option Bytes

inductive Reaction where
  | next (state : FetchState)
  | stop (outcome : Outcome)

variable (wire : Wire) (host : Host) (range : RangeSpec) (dest : String) (state : FetchState)

/-- The file stays when an error leaves it open. -/
def FetchState.fail (error : TransportError) : Outcome :=
  ⟨.error error, some state.file⟩

/-- The result of `remove_file` is ignored. -/
def FetchState.discard (text : String) : Outcome :=
  ⟨.error (.other text), if host.removes then none else some state.file⟩

def FetchState.chunk (state : FetchState) (offset : UInt64) (data : String) : Reaction :=
  match wire.decodeBase64 data with
  | .error e => .stop (state.fail (.decode s!"base64 chunk: {e}"))
  | .ok bytes =>
    let total := state.total
    if offset ≠ total then
      .stop (state.fail (.other
        s!"blob fetch: chunk out of order (expected offset {total}, got {offset})"))
    else
      match host.write state.writes with
      | some e => .stop (state.fail (.other s!"write {dest}: {e}"))
      | none =>
        .next {state with
          file := state.file ++ bytes
          hasher := state.hasher ++ bytes
          total := total + UInt64.ofNat bytes.length
          writes := state.writes + 1}

/-- The digest of the peer is compared with the received bytes and with nothing else. -/
def FetchState.done (claimed : String) : Outcome :=
  let computed := toHex (blake3 state.hasher).bytes
  let total := state.total
  if computed ≠ claimed then
    state.discard host s!"blob fetch: blake3 mismatch (got {computed}, peer claimed {claimed})"
  else
    match range, state.expectedSize with
    | .all, some size =>
      if size ≠ total then
        state.discard host s!"blob fetch: size mismatch (peer said {size}, received {total})"
      else finish state
    | _, _ => finish state
where
  finish (state : FetchState) : Outcome :=
    match host.flush with
    | some e => state.fail (.other s!"flush {dest}: {e}")
    | none => ⟨.ok state.total, some state.file⟩

def FetchState.react : Message → Reaction
  | .meta_ sizeBytes _ => .next {state with expectedSize := some sizeBytes}
  | .chunk _ offset data => state.chunk wire host dest offset data
  | .done claimed => .stop (state.done host range dest claimed)
  | .error msg => .stop (state.discard host s!"peer error: {msg}")
  | other =>
    let reply := wire.debug other
    .stop (state.fail (.other s!"blob fetch: unexpected reply {reply}"))

def receive (state : FetchState) (stream : Stream) : Outcome :=
  match _taken : FrameCodec.read stream with
  | .error error => state.fail error
  | .ok none => state.fail (.other "blob fetch: peer closed stream before Done")
  | .ok (some (frame, rest)) =>
    match Message.fromFrame wire frame with
    | .error error => state.fail error
    | .ok msg =>
      match state.react wire host range dest msg with
      | .stop outcome => outcome
      | .next after => receive after rest
termination_by stream.bytes.length
decreasing_by exact FrameCodec.read_shorter _taken

/-- The old file is the one that stands at the destination before the fetch. -/
def fetchBlobOverTransport (old : Option Bytes) (hash : ContentHash) (stream : Stream) : Outcome :=
  match (Message.get hash.asHex range).intoFrame wire with
  | .error error => ⟨.error error, old⟩
  | .ok _ =>
    match host.send with
    | some error => ⟨.error error, old⟩
    | none =>
      match host.create with
      | some e => ⟨.error (.other s!"create {dest}: {e}"), old⟩
      | none => receive wire host range dest {} stream

end A3Net.Transport
