import Mathlib.Data.List.Infix
import A3Net.Machine.Piecewise
import A3Net.Machine.Text

namespace A3Net.Transport

def maxFrameSize : Nat := 4 * 1024 * 1024

structure Frame where
  bytes : Bytes
deriving DecidableEq

inductive TransportError where
  | io (text : String)
  | frameTooLarge (length limit : Nat)
  | decode (text : String)
  | other (text : String)
deriving DecidableEq

/-- A connection yields these bytes and then ends, cleanly or with an error. -/
structure Stream where
  bytes : Bytes
  failure : Option String := none
deriving DecidableEq

namespace FrameCodec

def lengthBytes (length : Nat) : Bytes :=
  [UInt8.ofNat (length / 2 ^ 24), UInt8.ofNat (length / 2 ^ 16), UInt8.ofNat (length / 2 ^ 8),
    UInt8.ofNat length]

/-- The length is cut to 32 bits. -/
def encode (frame : Frame) : Bytes := lengthBytes frame.bytes.length ++ frame.bytes

/-- The end of the connection decides how a short read fails. -/
def shortRead (stream : Stream) (clean : Except TransportError (Option (Frame × Stream))) :
    Except TransportError (Option (Frame × Stream)) :=
  match stream.failure with
  | some text => .error (.io text)
  | none => clean

def read (stream : Stream) : Except TransportError (Option (Frame × Stream)) :=
  match stream.bytes with
  | first :: second :: third :: fourth :: body =>
    let length := first.toNat * 2 ^ 24 + second.toNat * 2 ^ 16 + third.toNat * 2 ^ 8 + fourth.toNat
    if maxFrameSize < length then .error (.frameTooLarge length maxFrameSize)
    else if body.length < length then shortRead stream (.error (.io "early eof"))
    else .ok (some (⟨body.take length⟩, {stream with bytes := body.drop length}))
  | _ => shortRead stream (.ok none)

theorem shortRead_none {stream : Stream} (clean : Except TransportError (Option (Frame × Stream)))
    (nothing : ∀ pair, clean ≠ .ok (some pair)) (pair : Frame × Stream) :
    shortRead stream clean ≠ .ok (some pair) := by
  unfold shortRead
  split
  · exact fun equal => by cases equal
  · exact nothing pair

/-- Each frame takes at least its length from the stream. -/
theorem read_shorter {stream rest : Stream} {frame : Frame}
    (taken : read stream = .ok (some (frame, rest))) : rest.bytes.length < stream.bytes.length := by
  revert taken
  fun_cases read stream with
  | case1 => rintro ⟨⟩
  | case2 | case4 =>
    intro taken
    exact absurd taken (shortRead_none _ (fun pair equal => by cases equal) _)
  | case3 _ _ _ _ body bytes =>
    rintro ⟨⟩
    simp only [bytes, List.length_cons, List.length_drop]
    omega

end FrameCodec

open Machine

inductive ErrorKind where
  | unexpectedEof
  | connectionAborted
  | other
deriving DecidableEq

structure IoError where
  kind : ErrorKind
  text : String

/-- This is the error of a read that ends early. -/
def earlyEof : IoError := ⟨.unexpectedEof, "early eof"⟩

/-- One read takes from the first piece. After the last piece the connection ends, cleanly or with
an error. -/
structure Connection where
  pieces : List Bytes
  failure : Option IoError := none

def Connection.readExact (connection : Connection) (count : Nat) :
    Except IoError Bytes × Connection :=
  let (result, pieces) := Machine.readExact earlyEof (connection.failure.getD earlyEof) count
    connection.pieces
  (result, {connection with pieces})

namespace FrameCodec

/-- This is the value of the four bytes of a length. -/
def ofLengthBytes (bytes : Bytes) : Nat :=
  bytes.foldl (fun value byte => value * 2 ^ 8 + byte.toNat) 0

/-- The two readers differ in the errors that they take for the end of the stream, and in their
reports of the others. -/
structure Reports (Error : Type) where
  isEnd : IoError → Bool
  lengthError : IoError → Error
  tooLarge : Nat → Error
  bodyError : IoError → Error

def readBody {Error : Type} (reports : Reports Error) (length : Nat) (connection : Connection) :
    Except Error (Option Frame) × Connection :=
  match connection.readExact length with
  | (.error e, connection) => (.error (reports.bodyError e), connection)
  | (.ok body, connection) => (.ok (some ⟨body⟩), connection)

def readWith {Error : Type} (reports : Reports Error) (connection : Connection) :
    Except Error (Option Frame) × Connection :=
  match connection.readExact 4 with
  | (.error e, connection) =>
    if reports.isEnd e then (.ok none, connection)
    else (.error (reports.lengthError e), connection)
  | (.ok lenBuf, connection) =>
    let length := ofLengthBytes lenBuf
    if maxFrameSize < length then (.error (reports.tooLarge length), connection)
    else readBody reports length connection

def readReports : Reports TransportError where
  isEnd e := e.kind = .unexpectedEof
  lengthError e := .io e.text
  tooLarge length := .frameTooLarge length maxFrameSize
  bodyError e := .io e.text

/-- This is `read` of the source. -/
def readFrom : Connection → Except TransportError (Option Frame) × Connection :=
  readWith readReports

/-- Letters are compared without their case. No letter outside ASCII has one of these words in its
small form. -/
def isPeerClose (e : IoError) : Bool :=
  let msg := asciiLower e.text.toList
  "connection lost".toList <:+: msg ∨ "closed".toList <:+: msg ∨
    "reset".toList <:+: msg ∨ "aborted".toList <:+: msg

def streamReports : Reports String where
  isEnd e := e.kind = .unexpectedEof || e.kind = .connectionAborted || isPeerClose e
  lengthError e :=
    let text := e.text
    s!"read len: {text}"
  tooLarge length := s!"frame too large: {length} > {maxFrameSize}"
  bodyError e :=
    let text := e.text
    s!"read body: {text}"

def decodeStream : Connection → Except String (Option Frame) × Connection :=
  readWith streamReports

/-- The frame goes behind what was written before. -/
def write (written : Bytes) (frame : Frame) : Except TransportError Bytes :=
  let length := frame.bytes.length
  if maxFrameSize < length then .error (.frameTooLarge length maxFrameSize)
  else .ok (written ++ lengthBytes length ++ frame.bytes)

end FrameCodec

end A3Net.Transport
