/-
The attempts on the peers are numbered, and the network and the disk answer each attempt on its own.
-/

import A3Net.Construction.Types.ContentHash
import A3Net.Construction.Types.Range
import A3Net.Machine.Json
import A3Net.Machine.Text
import Mathlib.Data.UInt

namespace A3Net.Mesh

open Cryptography Machine

structure Request where
  url : String
  range : Option String := none

/-- The status has its printed text, and the body may break off. -/
structure Response where
  status : Nat
  statusText : String := ""
  contentType : Option String := none
  body : Except String Bytes

/-- A request is answered, or it fails with the text of a client error. -/
structure Network where
  send : Nat → Request → Except String Response
  statusError : Response → String
  parseJson : Bytes → Except String Json

/-- A failed write tells what it leaves at the destination. -/
structure Disk where
  createDirAll : Nat → Option String := fun _ => none
  write : Nat → Option (String × Option Bytes) := fun _ => none
  create : Nat → Option (String × Option Bytes) := fun _ => none
  writeAll : Nat → Nat → Option (String × Option Bytes) := fun _ _ => none
  removes : Nat → Bool := fun _ => true

/-- A fetch ends with its result and with the file at the destination, if there is one. -/
structure Outcome where
  result : Except String UInt64
  file : Option Bytes

structure MeshFetchResult where
  bytes : UInt64
  peer : String

def Response.isSuccess (response : Response) : Bool :=
  decide (200 ≤ response.status) && decide (response.status < 300)

/-- Client and server errors are the only statuses that `error_for_status` rejects. -/
def Response.errorForStatus (network : Network) (response : Response) : Except String Response :=
  if 400 ≤ response.status ∧ response.status < 600 then .error (network.statusError response)
  else .ok response

def findSubslice (hay needle : Bytes) : Option Nat :=
  (List.range (hay.length + 1 - needle.length)).find? fun index =>
    decide ((hay.drop index).take needle.length = needle)

def crlf : Bytes := [13, 10]

/-- One part gives its body and the number of bytes up to the end of the body. -/
def multipartStep (delim rest : Bytes) : Option (Bytes × Nat) :=
  match findSubslice rest delim with
  | none => none
  | some index =>
    let afterDelim := rest.drop (index + delim.length)
    let afterCrlf := if crlf.isPrefixOf afterDelim then afterDelim.drop 2 else afterDelim
    match findSubslice afterCrlf (crlf ++ crlf) with
    | none => none
    | some blank =>
      let bodyStart := blank + 4
      let fromBody := afterCrlf.drop bodyStart
      let bodyEnd := (findSubslice fromBody crlf).getD fromBody.length
      some (fromBody.take bodyEnd, index + delim.length + 2 + bodyStart + bodyEnd)

theorem multipartStep_consumed {delim rest body : Bytes} {consumed : Nat}
    (taken : multipartStep delim rest = some (body, consumed)) : 0 < consumed := by
  revert taken
  fun_cases multipartStep delim rest with
  | case3 =>
    rintro ⟨⟩
    omega
  | _ => rintro ⟨⟩

/-- The count after the delimiter includes its line end even when that is missing. -/
def multipartBodies (delim rest out : Bytes) : Bytes :=
  match _taken : multipartStep delim rest with
  | none => out
  | some (body, consumed) =>
    let after := rest.drop consumed
    if _inside : rest.length ≤ consumed then out ++ body
    else if [45, 45].isPrefixOf after then out ++ body
    else multipartBodies delim after (out ++ body)
termination_by rest.length
decreasing_by
  have positive := multipartStep_consumed _taken
  simp only [List.length_drop]
  omega

def extractMultipartBodies (raw : Bytes) (boundary : String) : Bytes :=
  multipartBodies (utf8 ("--" ++ boundary)) raw []

/-- A header text has no other white space than these. -/
def isBlank (char : Char) : Bool := char = ' ' || char = '\t'

def multipartBoundary (contentType : String) : Option String :=
  let found := (contentType.toList.splitOn ';').findSome? fun piece =>
    "boundary=".toList.isPrefixOf? (trimMatches isBlank piece)
  found.map fun rest => String.ofList (trimMatches (fun char => char = '"') rest)

/-- Six digits number a chunk. -/
def chunkName (index : Nat) : String :=
  let digits := toString index
  String.ofList (List.replicate (6 - digits.length) '0') ++ digits

variable (network : Network) (disk : Disk) (attempt : Nat) (hash : ContentHash) (old : Option Bytes)
  (base : String)

def blobUrl : String := base ++ "/blobs/" ++ hash.asHex

/-- A request that fails or breaks off has no body. -/
def getBytes (req : Request) : Except String Bytes :=
  match network.send attempt req with
  | .error e => .error e
  | .ok response => response.body

def getMeta : Except String Json :=
  match getBytes network attempt ⟨blobUrl hash base ++ "/meta", none⟩ with
  | .error e => .error e
  | .ok body => network.parseJson body

/-- A missing or unusual number counts as zero. -/
def metaNumber (meta_ : Json) (key : String) : UInt64 :=
  ((meta_.get key).bind Json.asU64).getD 0

def getChunk (index : Nat) : Except String Bytes :=
  match network.send attempt ⟨blobUrl hash base ++ "/chunks/" ++ chunkName index, none⟩ with
  | .error e => .error e
  | .ok response =>
    match response.errorForStatus network with
    | .error e => .error e
    | .ok accepted => accepted.body

/-- The chunks go to the file one after the other. -/
def writeChunks (file : Bytes) (total : UInt64) : Nat → List Bytes → Outcome
  | _, [] => ⟨.ok total, some file⟩
  | index, chunk :: rest =>
    match disk.writeAll attempt index with
    | some (e, left) => ⟨.error e, left⟩
    | none => writeChunks (file ++ chunk) (total + UInt64.ofNat chunk.length) (index + 1) rest

variable (base : String)

/-- The first failed chunk decides the error, and no hash is computed. -/
def fetchChunksParallel (chunkCount : Nat) : Outcome :=
  match (List.range chunkCount).mapM (getChunk network attempt hash base) with
  | .error e => ⟨.error e, old⟩
  | .ok parts =>
    match disk.createDirAll attempt with
    | some e => ⟨.error e, old⟩
    | none =>
      match disk.create attempt with
      | some (e, left) => ⟨.error e, left⟩
      | none => writeChunks disk attempt [] 0 0 parts

/-- The bytes are written first and checked afterwards. -/
def fetchWhole : Outcome :=
  match getBytes network attempt ⟨blobUrl hash base, none⟩ with
  | .error e => ⟨.error e, old⟩
  | .ok bytes =>
    match disk.createDirAll attempt with
    | some e => ⟨.error e, old⟩
    | none =>
      match disk.write attempt with
      | some (e, left) => ⟨.error e, left⟩
      | none =>
        let actual := ContentHash.fromBytes bytes
        if actual ≠ hash then
          let expected := hash.asHex
          let got := actual.asHex
          ⟨.error s!"blob hash mismatch: expected={expected} got={got}",
            if disk.removes attempt then none else some bytes⟩
        else ⟨.ok (UInt64.ofNat bytes.length), some bytes⟩

/-- The framing of several ranges is removed. -/
def rangeBody (response : Response) : Except String Bytes :=
  let contentType := response.contentType.getD ""
  if "multipart/byteranges".toList.isPrefixOf contentType.toList then
    match multipartBoundary contentType with
    | none => .error "missing multipart boundary"
    | some boundary =>
      match response.body with
      | .error e => .error e
      | .ok raw => .ok (extractMultipartBodies raw boundary)
  else response.body

def expectedSize (totalSize : UInt64) : RangeSpec → UInt64
  | .all => totalSize
  | .single range => ByteRange.saturatingSub range.stop range.start
  | .multi ranges => (ranges.map fun range => ByteRange.saturatingSub range.stop range.start).sum

def fetchWithRange (range : RangeSpec) (totalSize : UInt64) : Outcome :=
  match range.toHttpHeader with
  | none => ⟨.error "RangeSpec::All handled before fetch_with_range", old⟩
  | some header =>
    match network.send attempt ⟨blobUrl hash base, some header⟩ with
    | .error e => ⟨.error e, old⟩
    | .ok response =>
      let status := response.statusText
      if response.isSuccess = false then
        ⟨.error s!"range fetch returned HTTP {status}", old⟩
      else
        match rangeBody response with
        | .error e => ⟨.error e, old⟩
        | .ok bytes =>
          match disk.createDirAll attempt with
          | some e => ⟨.error e, old⟩
          | none =>
            match disk.write attempt with
            | some (e, left) => ⟨.error e, left⟩
            | none =>
              let expected := expectedSize totalSize range
              let got := bytes.length
              if UInt64.ofNat got ≠ expected then
                ⟨.error s!"range fetch size mismatch: expected {expected}, got {got}",
                  some bytes⟩
              else ⟨.ok (UInt64.ofNat got), some bytes⟩

/-- The chunk count is cut to 32 bits. -/
def chunkCount (meta_ : Json) : Nat := (metaNumber meta_ "chunkCount").toUInt32.toNat

def fetchFromOne (range : RangeSpec) : Outcome :=
  match getMeta network attempt hash base with
  | .error e => ⟨.error e, old⟩
  | .ok meta_ =>
    match range with
    | .all =>
      if 1 < chunkCount meta_ then
        fetchChunksParallel network disk attempt hash old base (chunkCount meta_)
      else fetchWhole network disk attempt hash old base
    | range => fetchWithRange network disk attempt hash old base range (metaNumber meta_ "sizeBytes")

/-- Every peer finds the file that the attempts before it left. -/
def tryPeers (range : RangeSpec) (old : Option Bytes) (lastErr : String) :
    Nat → List String → Except String MeshFetchResult × Option Bytes
  | _, [] => (.error s!"All mesh peers failed: {lastErr}", old)
  | attempt, base :: rest =>
    match fetchFromOne network disk attempt hash old base range with
    | ⟨.ok bytes, file⟩ => (.ok ⟨bytes, base⟩, file)
    | ⟨.error e, file⟩ => tryPeers range file e (attempt + 1) rest

def fetchFromMesh (build : Option String) (range : RangeSpec) (old : Option Bytes)
    (peerBases : List String) : Except String MeshFetchResult × Option Bytes :=
  if peerBases.isEmpty then (.error "No peers available for mesh fetch", old)
  else
    match build with
    | some e => (.error e, old)
    | none => tryPeers network disk hash range old "" 0 peerBases

end A3Net.Mesh
