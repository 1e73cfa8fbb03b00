/-
The zone store beside them is an interface, because the crate's own zone store lacks the deletion
and the expiry time that the HTTP interface uses.
-/

import A3Net.Machine.Table
import A3Net.Machine.Text

namespace A3Net.DnsServer

open Cryptography Machine

inductive ZoneStoreError where
  | io (text : String)
  | deserialize (text : String)

inductive AdnetError where
  | validation (text : String)

inductive PkarrError where
  | invalidKey (text : String)
  | invalidPacket (text : String)
  | zone (error : ZoneStoreError)
  | adnet (error : AdnetError)
  | serialization (text : String)

/-- These are the debug format of texts and the curve check that the crate takes from its
libraries. -/
structure Library where
  debug : List Char → String
  verifyingKeyFromBytes : Bytes → Except String Unit

def maxTtlSeconds : UInt32 := 3600

structure PkarrRecord where
  zone : List Char
  packet : Bytes
  ttlSecs : UInt32

section Record

variable (lib : Library) (zone : List Char)

def validateZone : Except AdnetError Unit :=
  if zone.isEmpty then .error (.validation "pkarr zone: empty")
  else if zone.head? = some '.' ∨ zone.getLast? = some '.' then
    .error (.validation ("pkarr zone: leading/trailing dot in " ++ lib.debug zone))
  else if zone.any isWhiteSpace then
    .error (.validation ("pkarr zone: whitespace in " ++ lib.debug zone))
  else if !zone.all fun char => char.toNat < 128 then
    .error (.validation ("pkarr zone: non-ASCII characters in " ++ lib.debug zone))
  else if !zone.contains '.' then
    .error (.validation ("pkarr zone: expected FQDN-style suffix, got " ++ lib.debug zone))
  else .ok ()

def PkarrRecord.inZone (packet : Bytes) (ttlSecs : UInt32) :
    Except AdnetError PkarrRecord := do
  validateZone lib zone
  .ok ⟨zone, packet, min ttlSecs maxTtlSeconds⟩

def PkarrRecord.dnsTxtName (zone z32 : List Char) : List Char :=
  let zone := (zone.reverse.dropWhile (· = '.')).reverse
  "_iroh.".toList ++ z32 ++ ['.'] ++ zone ++ ['.']

end Record

section Key

def z32Alphabet : Bytes :=
  ['y', 'b', 'n', 'd', 'r', 'f', 'g', '8', 'e', 'j', 'k', 'm', 'c', 'p', 'q', 'x', 'o', 't', '1',
    'u', 'w', 'i', 's', 'z', 'a', '3', '4', '5', 'h', '7', '6', '9'].map Char.toUInt8

/-- The decoder has a buffer, the number of its bits that are not yet read, and the bytes so far. -/
structure Z32State where
  buffer : UInt64 := 0
  bits : Nat := 0
  out : Bytes := []

def Z32State.push (state : Z32State) (byte : UInt8) : Option Z32State := do
  let value ← z32Alphabet.idxOf? byte
  let buffer := (state.buffer <<< 5) ||| value.toUInt64
  let bits := state.bits + 5
  if bits < 8 then some { state with buffer, bits }
  else if 32 ≤ state.out.length then none
  else
    let rest := bits - 8
    some ⟨buffer, rest, state.out ++ [(buffer >>> rest.toUInt64).toUInt8]⟩

def z32Decode (text : List Char) : Option Bytes := do
  let bytes := utf8Chars text
  if bytes.length ≠ 52 then none
  else
    let final ← bytes.foldlM Z32State.push {}
    -- A bit that fits in no byte must be zero.
    if final.bits ≠ 0 ∧ final.buffer &&& ((1 <<< final.bits.toUInt64) - 1) ≠ 0 then none
    else if final.out.length ≠ 32 then none
    else some final.out

def isZ32Char (char : Char) : Bool :=
  ('a' ≤ char && char ≤ 'z') || ('1' ≤ char && char ≤ '9')

def validateZ32Pubkey (lib : Library) (text : List Char) : Except PkarrError Unit :=
  let length := (utf8Chars text).length
  let shown := lib.debug text
  if length ≠ 52 then
    .error (.invalidKey s!"expected 52 z32 chars, got {length} ({shown})")
  else if !text.all isZ32Char then
    .error (.invalidKey ("z32 chars must be in [a-z1-9] (z-base-32 alphabet excludes only 0 and 2), "
      ++ s!"got {shown}"))
  else
    match z32Decode text with
    | none => .error (.invalidKey s!"z32 decode failed for {shown}")
    | some bytes =>
      let decoded := bytes.length
      if decoded ≠ 32 then
        .error (.invalidKey s!"z32 decoded to {decoded} bytes, expected 32")
      else (lib.verifyingKeyFromBytes bytes).mapError fun error =>
        .invalidKey s!"off-curve ed25519 point: {error}"

end Key

section Zone

def base64Chars : List Char :=
  "ABCDEFGHIJKLMNOPQRSTUVWXYZabcdefghijklmnopqrstuvwxyz0123456789-_".toList

def base64Char (value : UInt32) : Char := base64Chars.getD (value &&& 0x3f).toNat 'A'

/-- The alphabet is the one for URLs, and nothing fills up the last group. -/
def base64EncodePacket : Bytes → List Char
  | [] => []
  | [first] =>
    let group := first.toUInt32 <<< 16
    [base64Char (group >>> 18), base64Char (group >>> 12)]
  | [first, second] =>
    let group := (first.toUInt32 <<< 16) ||| (second.toUInt32 <<< 8)
    [base64Char (group >>> 18), base64Char (group >>> 12), base64Char (group >>> 6)]
  | first :: second :: third :: rest =>
    let group := (first.toUInt32 <<< 16) ||| (second.toUInt32 <<< 8) ||| third.toUInt32
    [base64Char (group >>> 18), base64Char (group >>> 12), base64Char (group >>> 6),
      base64Char group] ++ base64EncodePacket rest

inductive RecordKind where
  | adnetIpnsTxt (ipnsName payload : List Char) (ttlSecs : UInt32)
  | relayAddr (ipnsName addr : List Char) (ttlSecs : UInt32)

structure ZoneRecord where
  key : List Char
  kind : RecordKind
  expiresAtUnixMs : Int

/-- The zone store serves a zone and takes and deletes records. -/
structure ZoneInterface (Zone : Type) where
  zone : Zone → List Char
  put : Zone → ZoneRecord → Except ZoneStoreError Unit × Zone
  delete : Zone → List Char → Except ZoneStoreError Unit × Zone

end Zone

/-- The state file is absent without a configured path. -/
structure PkarrStore where
  zone : List Char
  hasStatePath : Bool
  inner : Table (List Char) PkarrRecord
  file : Option (Table (List Char) PkarrRecord)

namespace PkarrStore

variable (lib : Library) (store : PkarrStore)

/-- The new file replaces the old one as a whole, or the step fails and leaves the old one. -/
def persist (fault : Option PkarrError) : Except PkarrError Unit × PkarrStore :=
  if !store.hasStatePath then (.ok (), store)
  else
    match fault with
    | some error => (.error error, store)
    | none => (.ok (), { store with file := some store.inner })

/-- The record stays in the table when the file cannot be written. -/
def publish (z32 : List Char) (packet : Bytes) (ttlSecs : UInt32) (fault : Option PkarrError) :
    Except PkarrError PkarrRecord × PkarrStore :=
  match validateZ32Pubkey lib z32 with
  | .error error => (.error error, store)
  | .ok () =>
    if packet.isEmpty then (.error (.invalidPacket "empty packet"), store)
    else
      match PkarrRecord.inZone lib store.zone packet ttlSecs with
      | .error error => (.error (.adnet error), store)
      | .ok record =>
        let inserted := { store with inner := store.inner.insert z32 record }
        let (result, persisted) := inserted.persist fault
        (result.map fun _ => record, persisted)

end PkarrStore

structure PkarrApi (Zone : Type) where
  store : PkarrStore
  zone : Zone

namespace PkarrApi

variable {Zone : Type} (lib : Library) (zones : ZoneInterface Zone) (api : PkarrApi Zone)
  (z32 : List Char)

def publish (packet : Bytes) (ttlSecs : Option UInt32) (nowUnixMs : Int)
    (fault : Option PkarrError) : Except PkarrError PkarrRecord × PkarrApi Zone :=
  match api.store.publish lib z32 packet (ttlSecs.getD 3600) fault with
  | (.error error, store) => (.error error, { api with store })
  | (.ok record, store) =>
    let mirrored : ZoneRecord :=
      { key := PkarrRecord.dnsTxtName (zones.zone api.zone) z32
        kind := .adnetIpnsTxt z32 (base64EncodePacket record.packet) record.ttlSecs
        expiresAtUnixMs := nowUnixMs + record.ttlSecs.toNat * 1000 }
    let (result, zone) := zones.put api.zone mirrored
    ((result.mapError PkarrError.zone).map fun _ => record, ⟨store, zone⟩)

def delete (fault : Option PkarrError) :
    Except PkarrError Bool × PkarrApi Zone :=
  match validateZ32Pubkey lib z32 with
  | .error error => (.error error, api)
  | .ok () =>
    if (api.store.inner.lookup z32).isNone then (.ok false, api)
    else
      let erased := { api.store with inner := api.store.inner.erase z32 }
      match erased.persist fault with
      | (.error error, store) => (.error error, { api with store })
      | (.ok (), store) =>
        let (result, zone) := zones.delete api.zone
          (PkarrRecord.dnsTxtName (zones.zone api.zone) z32)
        ((result.mapError PkarrError.zone).map fun _ => true, ⟨store, zone⟩)

end PkarrApi

/-- The deletion handler reads nothing but the key, whatever else the client sends with it. -/
inductive Request where
  | publish (z32 : List Char) (packet : Bytes) (ttlSecs : Option UInt32)
  | delete (z32 : List Char) (credential : Bytes)

/-- A request comes at a time, and the state file may fail it. -/
structure Call where
  request : Request
  nowUnixMs : Int
  fault : Option PkarrError

def PkarrApi.serve {Zone : Type} (lib : Library) (zones : ZoneInterface Zone)
    (api : PkarrApi Zone) (call : Call) : PkarrApi Zone :=
  match call.request with
  | .publish z32 packet ttlSecs =>
    (api.publish lib zones z32 packet ttlSecs call.nowUnixMs call.fault).2
  | .delete z32 _ => (api.delete lib zones z32 call.fault).2

end A3Net.DnsServer
