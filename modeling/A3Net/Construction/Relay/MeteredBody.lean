import A3Net.Cryptography.Bytes

namespace A3Net.Relay

/-- This is the largest value of a counter. -/
def usizeMax : Nat := 18446744073709551615

def saturatingCount (total : UInt64) (length : Nat) : UInt64 :=
  UInt64.ofNat (min (total.toNat + length) usizeMax)

inductive Poll (Item : Type) where
  | pending
  | ready (item : Option Item)

inductive BoundedBodyError where
  | upstream (text : String)
  | tooLarge (limit got : UInt64)

/-- The upstream body answers a poll later, with a chunk or with an error. -/
inductive Upstream where
  | pending
  | chunk (bytes : Bytes)
  | error (text : String)

/-- The inner stream is the list of its answers to come, and it ends after them. The number of
signals is history. -/
structure MeteredBody where
  inner : List Upstream
  maxBytes : UInt64
  bytesCounter : UInt64
  total : UInt64
  aborted : Bool
  completionTx : Bool
  signals : Nat := 0

abbrev Output := Poll (Except BoundedBodyError Bytes)

def meteredBodyStream (src : List Upstream) (maxBytes bytesCounter : UInt64)
    (completionTx : Bool) : MeteredBody :=
  {inner := src, maxBytes, bytesCounter, total := 0, aborted := false, completionTx}

namespace MeteredBody

variable (body : MeteredBody)

/-- The sender is taken, so it sends once. -/
def fireCompletion : MeteredBody :=
  if body.completionTx then {body with completionTx := false, signals := body.signals + 1}
  else body

/-- The body is closed with an error. -/
def abort (error : BoundedBodyError) : Output × MeteredBody :=
  (.ready (some (.error error)),
    fireCompletion {body with aborted := true, bytesCounter := body.total})

def receive (chunk : Bytes) : Output × MeteredBody :=
  let body := {body with total := saturatingCount body.total chunk.length}
  if body.maxBytes < body.total then abort body (.tooLarge body.maxBytes body.total)
  else (.ready (some (.ok chunk)), {body with bytesCounter := body.total})

def pollNext : Output × MeteredBody :=
  if body.aborted then (.ready none, fireCompletion body)
  else
    match body.inner with
    | [] => (.ready none, fireCompletion {body with bytesCounter := body.total})
    | .pending :: inner => (.pending, {body with inner})
    | .chunk bytes :: inner => receive {body with inner} bytes
    | .error text :: inner => abort {body with inner} (.upstream text)

end MeteredBody
end A3Net.Relay
