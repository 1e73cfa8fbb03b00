/-
A slice out of its bounds or an overflow panics.
-/

import A3Net.Construction.Blobstore.Store
import A3Net.Construction.Types.Range
import A3Net.Machine.Json

namespace A3Net.Blobstore

open Cryptography Machine Store

inductive ChunkError where
  | os (error : IoError)
  | chunkOutOfRange (index total : UInt32)
  | rangeOutOfBounds (start stop size : UInt64)
  | invalidRange (text : String)

inductive ReadFailure where
  | error (error : ChunkError)
  | panicked

abbrev Reading := Except ReadFailure

def addChecked32 (first second : UInt32) : Reading UInt32 :=
  if first.toNat + second.toNat < 2 ^ 32 then .ok (first + second) else .error .panicked

variable (first second : UInt64)

def addChecked64 : Reading UInt64 :=
  if first.toNat + second.toNat < 2 ^ 64 then .ok (first + second) else .error .panicked

def subChecked64 : Reading UInt64 :=
  if second ≤ first then .ok (first - second) else .error .panicked

def subSlice (bytes : Bytes) (start stop : Nat) : Reading Bytes :=
  if start ≤ stop ∧ stop ≤ bytes.length then .ok ((bytes.take stop).drop start)
  else .error .panicked

def chunkWidth : UInt64 := 16384

def chunkCountFor (size : UInt64) : UInt32 :=
  if size = 0 then 0 else ((size - 1) / chunkWidth + 1).toUInt32

structure ChunkSpan where
  startChunk : UInt32
  endChunkExclusive : UInt32
  firstOffset : UInt64
  lastLen : UInt64

/-- The last length is meant inside the last chunk, or from the first offset when that chunk is the
only one. -/
def chunksForRange (totalSize : UInt64) (range : ByteRange) : Reading ChunkSpan := do
  let chunks := chunkCountFor totalSize
  if totalSize < range.stop then
    throw (.error (.rangeOutOfBounds range.start range.stop totalSize))
  let startChunk := (range.start / chunkWidth).toUInt32
  let endChunkExclusive ←
    if range.stop = 0 then pure startChunk
    else addChecked32 ((range.stop - 1) / chunkWidth).toUInt32 1
  if chunks < endChunkExclusive ∧ 0 < chunks then
    throw (.error (.chunkOutOfRange (endChunkExclusive - 1) chunks))
  let next ← addChecked32 startChunk 1
  let lastLen ←
    if endChunkExclusive = next then pure (ByteRange.saturatingSub range.stop range.start)
    else do
      let last ← subChecked64 range.stop 1
      pure (last % chunkWidth + 1)
  return {startChunk, endChunkExclusive, firstOffset := range.start % chunkWidth, lastLen}

def metaValue (hash : ContentHash) (size count : UInt64) : Json :=
  .object [("chunkCount", .number (.unsigned count)), ("hash", .string hash.asHex),
    ("sizeBytes", .number (.unsigned size))]

/-- The JSON library reads the metadata of a blob back as it was written. -/
structure JsonLibrary where
  fromStr : List Char → Except String Json
  fromStr_meta : ∀ (digest : Digest) (size count : UInt64),
    fromStr (metaChars (.ofDigest digest) size.toNat count.toNat) =
      .ok (metaValue (.ofDigest digest) size count)

variable (json : JsonLibrary) (disk : Disk) (hash : ContentHash)

def osError (error : IoError) : ReadFailure := .error (.os error)

/-- These are the size and the number of chunks of a complete blob. -/
def metaOf : Reading (UInt64 × UInt32) :=
  if hasComplete disk hash then
    match (disk (.blob hash)).bind Folder.metaJson with
    | none => .error (osError missing)
    | some bytes =>
      match fromUtf8 bytes with
      | none => .error (osError ⟨.invalidData, "stream did not contain valid UTF-8"⟩)
      | some text =>
        match json.fromStr text with
        | .error text => .error (osError ⟨.other, text⟩)
        | .ok value =>
          .ok (((value.get "sizeBytes").bind Json.asU64).getD 0,
            (((value.get "chunkCount").bind Json.asU64).getD 0).toUInt32)
  else .error (osError ⟨.notFound, "blob not complete: " ++ hash.asHex⟩)

def readChunkSync (index : UInt32) : Except IoError Bytes :=
  match (disk (.blob hash)).bind (·.read (.chunk index.toNat)) with
  | none => .error missing
  | some bytes => .ok bytes

/-- This is what one chunk of a span gives. -/
def chunkPart (span : ChunkSpan) (total : UInt32) (place : Nat) (chunk : Bytes) : Reading Bytes :=
  if total = 1 then do
    let endOff ← addChecked64 span.firstOffset span.lastLen
    subSlice chunk span.firstOffset.toNat (min endOff.toNat chunk.length)
  else if place = 0 then subSlice chunk span.firstOffset.toNat chunk.length
  else if place + 1 = total.toNat then subSlice chunk 0 (min span.lastLen.toNat chunk.length)
  else .ok chunk

/-- A chunk past the number of chunks ends the loop. -/
def readSpan (count total : UInt32) (span : ChunkSpan) :
    Nat → List UInt32 → Bytes → Reading Bytes
  | _, [], out => .ok out
  | place, index :: rest, out => do
      let chunk ← (readChunkSync disk hash index).mapError osError
      let part ← chunkPart span total place chunk
      if count < UInt32.ofNat place then throw (.error (.chunkOutOfRange index count))
      readSpan count total span (place + 1) rest (out ++ part)

def ChunkSpan.indices (span : ChunkSpan) : List UInt32 :=
  (List.range' span.startChunk.toNat
    (span.endChunkExclusive.toNat - span.startChunk.toNat)).map UInt32.ofNat

def readRangeSync (range : ByteRange) : Reading Bytes := do
  let (size, count) ← metaOf json disk hash
  if range.stop = 0 ∨ size ≤ range.start then return []
  let clamped ← (ByteRange.new range.start (min range.stop size)).mapError fun error =>
    .error (.invalidRange error)
  let span ← chunksForRange size clamped
  let total := if span.startChunk ≤ span.endChunkExclusive then
    span.endChunkExclusive - span.startChunk else 0
  readSpan disk hash count total span 0 span.indices []

/-- A blob that cannot be read whole is missing. -/
def getSync : Option Bytes :=
  if hasComplete disk hash then
    match metaOf json disk hash with
    | .error _ => none
    | .ok (size, _) =>
      match ByteRange.new 0 size with
      | .error _ => none
      | .ok range => (readRangeSync json disk hash range).toOption
  else none

end A3Net.Blobstore
