import A3Net.Construction.Blobstore.RangeReads
import A3Net.Machine.Fallible
import A3Net.Proof.Blobstore.StoreIntegrity

namespace A3Net.Blobstore

open Cryptography Machine Store ContentHash List Nat UInt64

variable {Item : Type}

/-- The items from the first place up to the second. -/
def segment (items : List Item) (start stop : Nat) : List Item :=
  (items.drop start).take (stop - start)

variable {items : List Item}

theorem segment_append {start middle stop : Nat} (first : start ≤ middle) (second : middle ≤ stop) :
    segment items start middle ++ segment items middle stop = segment items start stop := by
  have lengths : stop - start = (middle - start) + (stop - middle) := by omega
  rw [segment, segment, segment, lengths, take_add, drop_drop, Nat.add_sub_cancel' first]

theorem segment_empty {start stop : Nat} (none : stop ≤ start) : segment items start stop = [] := by
  rw [segment, Nat.sub_eq_zero_of_le none, take_zero]

/-- A segment that starts before the range or in it goes on from where the range was read. -/
theorem segment_joined {start stop middle next : Nat} (inside : middle < stop)
    (reaches : max start middle ≤ min stop next) :
    segment items start (min stop middle) ++ segment items (max start middle) (min stop next) =
      segment items start (min stop next) := by
  rcases le_total middle start with before | after
  · rw [segment_empty (le_trans (min_le_right stop middle) before), nil_append, max_eq_left before]
  · rw [min_eq_right (le_of_lt inside), max_eq_right after]
    exact segment_append after (max_eq_right after ▸ reaches)

/-- A segment of a segment starts where both starts say. -/
theorem segment_segment {start stop first last : Nat} (inside : last ≤ stop - start) :
    segment (segment items start stop) first last =
      segment items (start + first) (start + last) := by
  rw [segment, segment, segment, drop_take, take_take, drop_drop]
  congr 1
  omega

theorem segment_length {start stop : Nat} (inside : stop ≤ items.length) :
    (segment items start stop).length = stop - start := by
  rw [segment, length_take, length_drop]
  omega

theorem chunkWidth_toNat : chunkWidth.toNat = chunkSize := rfl

theorem toUInt32_toNat_of_lt {value : UInt64} (small : value.toNat < 2 ^ 32) :
    value.toUInt32.toNat = value.toNat := by
  exact mod_eq_of_lt small

/-- The index of a chunk inside a blob that is not too long, and the next one. -/
theorem chunkIndex_toNat {value : UInt64} (small : value.toNat ≤ 2 ^ 45) :
    (value / chunkWidth).toUInt32.toNat = value.toNat / chunkSize ∧
      addChecked32 (value / chunkWidth).toUInt32 1 = .ok ((value / chunkWidth).toUInt32 + 1) ∧
      ((value / chunkWidth).toUInt32 + 1).toNat = value.toNat / chunkSize + 1 := by
  have fits : value.toNat / chunkSize + 1 < 2 ^ 32 := by
    unfold chunkSize
    omega
  have index : (value / chunkWidth).toUInt32.toNat = value.toNat / chunkSize := by
    rw [toUInt32_toNat_of_lt, UInt64.toNat_div, chunkWidth_toNat]
    exact lt_of_succ_lt fits
  refine ⟨index, ?_, ?_⟩
  · rw [addChecked32, if_pos (by rw [index]; exact fits)]
  · rw [UInt32.toNat_add, index]
    exact mod_eq_of_lt fits

/-- The span of a range inside a blob that is not too long. -/
structure Spans (start stop : Nat) (span : ChunkSpan) : Prop where
  first : span.startChunk.toNat = start / chunkSize
  last : span.endChunkExclusive.toNat = (stop - 1) / chunkSize + 1
  offset : span.firstOffset.toNat = start % chunkSize
  single : span.endChunkExclusive.toNat = span.startChunk.toNat + 1 →
    span.lastLen.toNat = stop - start
  several : span.endChunkExclusive.toNat ≠ span.startChunk.toNat + 1 →
    span.lastLen.toNat = (stop - 1) % chunkSize + 1

theorem chunkCountFor_toNat {size : UInt64} (some : 0 < size.toNat) (small : size.toNat ≤ 2 ^ 45) :
    (chunkCountFor size).toNat = (size.toNat - 1) / chunkSize + 1 := by
  have nonzero : size ≠ 0 := by
    rintro rfl
    exact absurd some (by decide)
  have less : (size - 1).toNat = size.toNat - 1 :=
    UInt64.toNat_sub_of_le _ _ (le_iff_toNat_le.mpr some)
  have quotient : ((size - 1) / chunkWidth + 1).toNat = (size.toNat - 1) / chunkSize + 1 := by
    rw [UInt64.toNat_add, UInt64.toNat_div, less, chunkWidth_toNat]
    rw [toNat_one]
    unfold chunkSize
    omega
  rw [chunkCountFor, if_neg nonzero, toUInt32_toNat_of_lt, quotient]
  rw [quotient]
  unfold chunkSize
  omega

theorem chunksForRange_spans {size : UInt64} {range : ByteRange} (small : size.toNat ≤ 2 ^ 45)
    (proper : range.start.toNat < range.stop.toNat) (inside : range.stop.toNat ≤ size.toNat) :
    ∃ span, chunksForRange size range = .ok span ∧
      Spans range.start.toNat range.stop.toNat span := by
  have within : ¬ size < range.stop := by
    rw [lt_iff_toNat_lt]
    omega
  have nonzero : range.stop ≠ 0 := by
    intro zero
    rw [zero] at proper
    exact absurd proper (not_lt_zero _)
  have less : (range.stop - 1).toNat = range.stop.toNat - 1 :=
    UInt64.toNat_sub_of_le _ _ (le_iff_toNat_le.mpr (zero_lt_of_lt proper))
  obtain ⟨first, next, nextNat⟩ := @chunkIndex_toNat range.start (by omega)
  obtain ⟨-, past, pastNat⟩ := @chunkIndex_toNat (range.stop - 1) (by omega)
  rw [less] at pastNat
  have counted : ¬ (chunkCountFor size < ((range.stop - 1) / chunkWidth).toUInt32 + 1 ∧
      0 < chunkCountFor size) := by
    rw [UInt32.lt_iff_toNat_lt, chunkCountFor_toNat (by omega) small, pastNat]
    unfold chunkSize
    omega
  have offset : (range.start % chunkWidth).toNat = range.start.toNat % chunkSize := by
    rw [UInt64.toNat_mod, chunkWidth_toNat]
  unfold chunksForRange
  simp only [if_neg within, if_neg nonzero, past, ok_bind, if_neg counted, next, pure_bind]
  by_cases one : ((range.stop - 1) / chunkWidth).toUInt32 + 1 =
      (range.start / chunkWidth).toUInt32 + 1
  · have length : (ByteRange.saturatingSub range.stop range.start).toNat =
        range.stop.toNat - range.start.toNat := by
      rw [ByteRange.saturatingSub, if_neg (by rw [lt_iff_toNat_lt]; omega)]
      exact UInt64.toNat_sub_of_le _ _ (le_iff_toNat_le.mpr (by omega))
    rw [if_pos one]
    refine ⟨_, rfl, first, pastNat, offset, fun _ => length, fun several => ?_⟩
    exact absurd (by rw [one, nextNat, first]) several
  · have enough : 1 ≤ range.stop := le_iff_toNat_le.mpr (zero_lt_of_lt proper)
    rw [if_neg one, subChecked64, if_pos enough, ok_bind]
    refine ⟨_, rfl, first, pastNat, offset, fun single => ?_, fun _ => ?_⟩
    · refine absurd (UInt32.toNat_inj.mp ?_) one
      rw [nextNat, ← first]
      exact single
    · rw [UInt64.toNat_add, UInt64.toNat_mod, less, chunkWidth_toNat]
      rw [toNat_one]
      unfold chunkSize
      omega

variable {content : Bytes} {start stop : Nat} {span : ChunkSpan}

/-- A slice of a chunk is a segment of the content. -/
theorem subSlice_segment {low high first last left right : Nat} (inside : high ≤ content.length)
    (starts : left = low + first) (stops : right = low + last) (ordered : left ≤ right)
    (within : right ≤ high) :
    subSlice (segment content low high) first last = .ok (segment content left right) := by
  have fits : last ≤ high - low := by omega
  rw [subSlice, segment_length inside, if_pos ⟨by omega, fits⟩, drop_take, ← segment,
    segment_segment fits, starts, stops]

variable {index : Nat} {total : UInt32}

section

variable (spans : Spans start stop span)
include spans

theorem Spans.start_eq : start = span.startChunk.toNat * chunkSize + span.firstOffset.toNat := by
  rw [spans.first, spans.offset]
  exact (div_add_mod' start chunkSize).symm

theorem Spans.stop_bounds (proper : start < stop) :
    span.startChunk.toNat < span.endChunkExclusive.toNat ∧
      (span.endChunkExclusive.toNat - 1) * chunkSize < stop ∧
        stop ≤ span.endChunkExclusive.toNat * chunkSize := by
  rw [spans.first, spans.last]
  unfold chunkSize
  omega

theorem Spans.stop_eq (proper : start < stop)
    (several : span.endChunkExclusive.toNat ≠ span.startChunk.toNat + 1) :
    stop = (span.endChunkExclusive.toNat - 1) * chunkSize + span.lastLen.toNat := by
  have parts := div_add_mod' (stop - 1) chunkSize
  rw [spans.several several, spans.last, Nat.add_sub_cancel]
  omega

/-- One chunk of the span gives the bytes of the range that lie in it. -/
theorem chunkPart_segment (proper : start < stop) (inside : stop ≤ content.length)
    (small : content.length ≤ 2 ^ 45)
    (all : total.toNat = span.endChunkExclusive.toNat - span.startChunk.toNat) {place : Nat}
    (below : place < total.toNat) (there : index = span.startChunk.toNat + place) :
    chunkPart span total place
        (segment content (index * chunkSize) (min content.length ((index + 1) * chunkSize))) =
      .ok (segment content (max start (index * chunkSize))
        (min stop ((index + 1) * chunkSize))) := by
  have first := spans.start_eq
  have offset : span.firstOffset.toNat < chunkSize := spans.offset ▸ mod_lt _ chunkSize_pos
  have bounds := spans.stop_bounds proper
  have within : min content.length ((index + 1) * chunkSize) ≤ content.length :=
    min_le_left _ _
  have length := @segment_length _ content (index * chunkSize) _ within
  unfold chunkPart
  unfold chunkSize at *
  by_cases one : total = 1
  · -- The range lies in one chunk.
    rw [one, UInt32.toNat_one] at all below
    have lastLen := spans.single (by omega)
    have fits : span.firstOffset.toNat + span.lastLen.toNat < 2 ^ 64 := by omega
    have sum : (span.firstOffset + span.lastLen).toNat =
        span.firstOffset.toNat + span.lastLen.toNat := by
      exact mod_eq_of_lt fits
    rw [if_pos one, addChecked64, if_pos fits, ok_bind, sum, length]
    exact subSlice_segment within (by omega) (by omega) (by omega) (by omega)
  have more : total.toNat ≠ 1 := fun equal => one (UInt32.toNat_inj.mp equal)
  rw [if_neg one]
  by_cases front : place = 0
  · rw [if_pos front, length]
    exact subSlice_segment within (by omega) (by omega) (by omega) (by omega)
  rw [if_neg front]
  by_cases back : place + 1 = total.toNat
  · have lastLen := spans.stop_eq proper (by omega)
    unfold chunkSize at lastLen
    rw [if_pos back, length]
    exact subSlice_segment within (by omega) (by omega) (by omega) (by omega)
  · rw [if_neg back]
    congr 2 <;> omega

end

theorem pieces_segment (there : index * chunkSize < content.length) :
    (pieces chunkSize content)[index]? = some
      (segment content (index * chunkSize) (min content.length ((index + 1) * chunkSize))) := by
  rw [pieces_getElem? chunkSize_pos, if_pos there, segment]
  congr 1
  rw [take_eq_take_iff, length_drop]
  unfold chunkSize
  omega

variable {disk : Store.Disk} {hash : ContentHash} {folder : Folder}

theorem readChunkSync_written {chunks : List Bytes} {chunk : Bytes} {index : UInt32}
    (found : disk (.blob hash) = some folder) (written : Written chunks chunks.length folder)
    (there : chunks[index.toNat]? = some chunk) : readChunkSync disk hash index = .ok chunk := by
  have below := (List.getElem?_eq_some_iff.mp there).1
  have stored : folder.read (.chunk index.toNat) = some chunk :=
    (written.2 index.toNat below).trans there
  rw [readChunkSync, found, Option.bind_some, stored]

/-- The loop has read the range up to the chunk that comes next. -/
theorem readSpan_segment (found : disk (.blob hash) = some folder)
    (written : Written (pieces chunkSize content) (pieces chunkSize content).length folder)
    (spans : Spans start stop span) (proper : start < stop) (inside : stop ≤ content.length)
    (small : content.length ≤ 2 ^ 45) {count : UInt32}
    (counted : span.endChunkExclusive.toNat ≤ count.toNat)
    (all : total.toNat = span.endChunkExclusive.toNat - span.startChunk.toNat) (left place : Nat)
    (toCome : span.startChunk.toNat + place + left = span.endChunkExclusive.toNat) :
    readSpan disk hash count total span place
        ((List.range' (span.startChunk.toNat + place) left).map UInt32.ofNat)
        (segment content start (min stop ((span.startChunk.toNat + place) * chunkSize))) =
      .ok (segment content start stop) := by
  have first := spans.first
  have last := spans.last
  induction left generalizing place with
  | zero =>
    rw [range'_zero, map_nil, readSpan]
    congr 2
    unfold chunkSize at *
    omega
  | succ left ih =>
    have later := ih (place + 1) (by omega)
    have bound := span.endChunkExclusive.toNat_lt
    have index : (UInt32.ofNat (span.startChunk.toNat + place)).toNat =
        span.startChunk.toNat + place := by
      exact mod_eq_of_lt (by omega)
    have there : (span.startChunk.toNat + place) * chunkSize < content.length := by
      unfold chunkSize at *
      omega
    have chunk := readChunkSync_written found written
      ((congrArg _ index).trans (pieces_segment there))
    have below : place < total.toNat := by omega
    have part := chunkPart_segment spans proper inside small all below rfl
    have numbered : ¬ count < UInt32.ofNat place := by
      rw [UInt32.lt_iff_toNat_lt, UInt32.toNat_ofNat']
      omega
    have joined :
        segment content start (min stop ((span.startChunk.toNat + place) * chunkSize)) ++
        segment content (max start ((span.startChunk.toNat + place) * chunkSize))
          (min stop ((span.startChunk.toNat + place + 1) * chunkSize)) =
        segment content start (min stop ((span.startChunk.toNat + (place + 1)) * chunkSize)) := by
      exact segment_joined (by unfold chunkSize at *; omega) (by unfold chunkSize at *; omega)
    rw [range'_succ, map_cons, readSpan, chunk]
    change chunkPart span total place _ >>= _ = _
    rw [part, ok_bind, if_neg numbered, joined]
    exact later

theorem pieces_few (small : content.length ≤ 2 ^ 45) :
    (pieces chunkSize content).length ≤ 2 ^ 31 := by
  rw [pieces_length_le_iff chunkSize_pos]
  unfold chunkSize
  omega

/-- A put into an empty store that succeeds leaves the whole blob. -/
theorem putBytesSync_stored {env : Surroundings} (small : content.length ≤ 2 ^ 45)
    {hash : ContentHash} {size : Nat} {session : Session Store.Disk}
    (put : (putBytesSync env content).execute ⟨fun _ => none, []⟩ = (.ok (hash, size), session)) :
    hash = fromBytes content ∧ ∃ folder, session.disk (.blob hash) = some folder ∧
      StoredBlob hash content.length (pieces chunkSize content) folder := by
  have files := @putFiles_safe env (fun _ => none) (fromBytes content)
    (pieces chunkSize content) content.length rfl (fun _ found => by cases found)
    ((pieces_few small).trans (by decide))
    (by rw [pieces_flatten chunkSize_pos])
  have outcome := (files ⟨fun _ => none, []⟩ rfl).2
  change (do
    putFiles env (fromBytes content) content.length (pieces chunkSize content)
    return (fromBytes content, content.length) : StoreProgram _).execute _ = _ at put
  rw [Program.execute_bind] at put
  generalize (putFiles env (fromBytes content) content.length
    (pieces chunkSize content)).execute ⟨fun _ => none, []⟩ = ended at put outcome
  obtain ⟨error | value, after⟩ := ended
  · cases put
  · cases put
    obtain ⟨_, folder, found, stored⟩ := outcome
    exact ⟨rfl, folder, found, stored⟩

variable (hash) (size count : UInt64)

theorem sizeField_meta :
    ((metaValue hash size count).get "sizeBytes").bind Json.asU64 = some size := rfl

theorem countField_meta :
    ((metaValue hash size count).get "chunkCount").bind Json.asU64 = some count := rfl

theorem min_toNat (first second : UInt64) :
    (min first second).toNat = min first.toNat second.toNat := by
  rw [show min first second = if first ≤ second then first else second from rfl]
  split_ifs with less
  · rw [min_eq_left (le_iff_toNat_le.mp less)]
  · rw [min_eq_right (le_of_lt (lt_iff_toNat_lt.mp (UInt64.not_le.mp less)))]

variable {json : JsonLibrary}

section

variable (small : content.length ≤ 2 ^ 45)
include small

theorem length_toNat : (ofNat content.length).toNat = content.length :=
  toNat_ofNat_of_lt' (lt_of_le_of_lt small (by decide))

/-- The loop starts with nothing and ends with the range. -/
theorem readSpan_whole {hash : ContentHash} (found : disk (.blob hash) = some folder)
    (written : Written (pieces chunkSize content) (pieces chunkSize content).length folder)
    (spans : Spans start stop span) (proper : start < stop) (inside : stop ≤ content.length) :
    readSpan disk hash (UInt32.ofNat (pieces chunkSize content).length)
        (if span.startChunk ≤ span.endChunkExclusive then
          span.endChunkExclusive - span.startChunk else 0) span 0 span.indices [] =
      .ok (segment content start stop) := by
  have few := pieces_few small
  have first := spans.first
  have last := spans.last
  have rising : span.startChunk.toNat ≤ span.endChunkExclusive.toNat := by
    unfold chunkSize at *
    omega
  have total : (span.endChunkExclusive - span.startChunk).toNat =
      span.endChunkExclusive.toNat - span.startChunk.toNat :=
    UInt32.toNat_sub_of_le _ _ (UInt32.le_iff_toNat_le.mpr rising)
  have enough : (stop - 1) / chunkSize < (pieces chunkSize content).length := by
    apply not_le.mp
    rw [pieces_length_le_iff chunkSize_pos]
    unfold chunkSize
    omega
  have counted : span.endChunkExclusive.toNat ≤
      (UInt32.ofNat (pieces chunkSize content).length).toNat := by
    rw [UInt32.toNat_ofNat', mod_eq_of_lt (lt_of_le_of_lt few (by decide)), last]
    exact enough
  have whole := readSpan_segment found written spans proper inside small counted total
    (span.endChunkExclusive.toNat - span.startChunk.toNat) 0 (by omega)
  have nothing : segment content start (min stop ((span.startChunk.toNat + 0) * chunkSize)) = [] :=
    segment_empty (by unfold chunkSize at *; omega)
  rw [nothing] at whole
  rw [if_pos (UInt32.le_iff_toNat_le.mpr rising)]
  exact whole

variable (found : disk (.blob (fromBytes content)) = some folder)
    (stored : StoredBlob (fromBytes content) content.length (pieces chunkSize content) folder)
include found stored

omit small in
theorem hasComplete_stored : hasComplete disk (fromBytes content) = true := by
  rw [hasComplete, found]
  exact stored.complete

theorem metaOf_stored :
    metaOf json disk (fromBytes content) =
      .ok (ofNat content.length, UInt32.ofNat (pieces chunkSize content).length) := by
  have few := pieces_few small
  have size := length_toNat small
  have count : (ofNat (pieces chunkSize content).length).toNat =
      (pieces chunkSize content).length :=
    toNat_ofNat_of_lt' (lt_of_le_of_lt few (by decide))
  have text := json.fromStr_meta (blake3 content) (ofNat content.length)
    (ofNat (pieces chunkSize content).length)
  rw [size, count, ← fromBytes_eq] at text
  rw [metaOf, if_pos (hasComplete_stored found stored), found, Option.bind_some, stored.described,
    mod_eq_of_lt (lt_of_le_of_lt few (by decide)), metaText]
  simp only [fromUtf8_utf8Chars, text, sizeField_meta, countField_meta, Option.getD_some,
    toUInt32_ofNat']

/-- A read of a stored blob gives the bytes of the range that the blob has. -/
theorem readRangeSync_stored {range : ByteRange} (proper : range.start < range.stop) :
    readRangeSync json disk (fromBytes content) range =
      .ok (segment content range.start.toNat (min range.stop.toNat content.length)) := by
  have size := length_toNat small
  have ordered : range.start.toNat < range.stop.toNat := lt_iff_toNat_lt.mp proper
  rw [readRangeSync, metaOf_stored small found stored, ok_bind]
  dsimp only
  by_cases past : ofNat content.length ≤ range.start
  · rw [if_pos (Or.inr past), segment_empty]
    · rfl
    · rw [le_iff_toNat_le, size] at past
      omega
  · rw [le_iff_toNat_le, size] at past
    have nonzero : ¬ (range.stop = 0 ∨ ofNat content.length ≤ range.start) := by
      rintro (zero | late)
      · rw [zero] at ordered
        exact absurd ordered (not_lt_zero _)
      · rw [le_iff_toNat_le, size] at late
        exact past late
    have stop : (min range.stop (ofNat content.length)).toNat =
        min range.stop.toNat content.length := by
      rw [min_toNat, size]
    have clamped : ¬ min range.stop (ofNat content.length) ≤ range.start := by
      rw [le_iff_toNat_le, stop]
      omega
    obtain ⟨span, spanned, spans⟩ := @chunksForRange_spans (ofNat content.length)
      ⟨range.start, min range.stop (ofNat content.length)⟩ (by omega)
      (by dsimp only; omega) (by dsimp only; omega)
    rw [if_neg nonzero, ByteRange.new, if_neg clamped]
    change chunksForRange _ _ >>= _ = _
    rw [stop] at spans
    rw [spanned, ok_bind]
    exact readSpan_whole small found stored.written spans (by omega) (by omega)

/-- A blob that is not empty is read back whole. -/
theorem getSync_stored (nonempty : content ≠ []) :
    getSync json disk (fromBytes content) = .some content := by
  have size := length_toNat small
  have proper : (0 : UInt64) < ofNat content.length := by
    rw [lt_iff_toNat_lt, size]
    exact length_pos_iff.mpr nonempty
  rw [getSync, if_pos (hasComplete_stored found stored), metaOf_stored small found stored]
  dsimp only
  rw [ByteRange.new, if_neg (UInt64.not_le.mpr proper)]
  dsimp only
  rw [@readRangeSync_stored _ _ _ json small found stored ⟨0, ofNat content.length⟩ proper]
  rw [size, min_self]
  exact congrArg Option.some (take_of_length_le (by simp))

end

/-- A range read of a stored blob gives exactly the bytes of the range. -/
theorem readRangeSync_exact (json : JsonLibrary) (env : Surroundings) {content : Bytes}
    (small : content.length ≤ 2 ^ 45) {hash : ContentHash} {size : Nat}
    {session : Session Store.Disk}
    (put : (putBytesSync env content).execute ⟨fun _ => none, []⟩ =
      (.ok (hash, size), session)) {range : ByteRange} (proper : range.start < range.stop) :
    readRangeSync json session.disk hash range =
      .ok ((content.drop range.start.toNat).take
        (min range.stop.toNat content.length - range.start.toNat)) := by
  obtain ⟨rfl, folder, found, stored⟩ := putBytesSync_stored small put
  exact readRangeSync_stored small found stored proper

/-- A blob that is not empty is read back as it was put. -/
theorem getSync_exact (json : JsonLibrary) (env : Surroundings) {content : Bytes}
    (small : content.length ≤ 2 ^ 45) (nonempty : content ≠ []) {hash : ContentHash} {size : Nat}
    {session : Session Store.Disk}
    (put : (putBytesSync env content).execute ⟨fun _ => none, []⟩ =
      (.ok (hash, size), session)) :
    getSync json session.disk hash = .some content := by
  obtain ⟨rfl, folder, found, stored⟩ := putBytesSync_stored small put
  exact getSync_stored small found stored nonempty

/-- The digits at the front of a text make a number. -/
def frontNumber (text : List Char) : UInt64 :=
  ofNat (ofDigitChars 10 (text.takeWhile Char.isDigit) 0)

variable {rest : List Char} {next : Char}

theorem span_decimal (value : Nat) (stops : next.isDigit = false) :
    (toDigits 10 value ++ next :: rest).takeWhile Char.isDigit = toDigits 10 value ∧
      (toDigits 10 value ++ next :: rest).dropWhile Char.isDigit = next :: rest := by
  have digits : ∀ digit ∈ toDigits 10 value, digit.isDigit = true := fun digit member =>
    isDigit_of_mem_toDigits (by decide) (by decide) member
  constructor
  · rw [takeWhile_append_of_pos digits, takeWhile_cons_of_neg (by simp [stops]), append_nil]
  · rw [dropWhile_append_of_pos digits, dropWhile_cons_of_neg (by simp [stops])]

theorem frontNumber_decimal (value : UInt64) (stops : next.isDigit = false) :
    frontNumber (toDigits 10 value.toNat ++ next :: rest) = value := by
  rw [frontNumber, (span_decimal value.toNat stops).1, ofDigitChars_ten_toDigits,
    UInt64.ofNat_toNat]

/-- This reader knows the shape of the metadata and nothing else. -/
def readMeta (text : List Char) : Json :=
  let afterCount := ((text.drop 14).dropWhile Char.isDigit).drop 9
  metaValue ⟨String.ofList (afterCount.take 64)⟩ (frontNumber (afterCount.drop 78))
    (frontNumber (text.drop 14))

def sampleJson : JsonLibrary where
  fromStr text := .ok (readMeta text)
  fromStr_meta digest size count := by
    have text : metaChars (.ofDigest digest) size.toNat count.toNat =
        "\x7b\"chunkCount\":".toList ++ (toDigits 10 count.toNat ++ ',' ::
          ("\"hash\":\"".toList ++ (hexChars digest.bytes ++ ("\",\"sizeBytes\":".toList ++
            (toDigits 10 size.toNat ++ '\x7d' :: []))))) := by
      simp [metaChars, ContentHash.ofDigest, ContentHash.asHex, toHex]
    have hex : (hexChars digest.bytes).length = 64 := by
      rw [hexChars_length, digest.size]
    have back : (hexChars digest.bytes ++ ("\",\"sizeBytes\":".toList ++
        (toDigits 10 size.toNat ++ ['\x7d']))).drop 78 =
        toDigits 10 size.toNat ++ ['\x7d'] := by
      rw [← append_assoc]
      exact drop_left' (by rw [length_append, hex]; rfl)
    rw [readMeta, text, drop_left' (by rfl), (span_decimal count.toNat (by decide)).2,
      frontNumber_decimal count (by decide), ← cons_append, drop_left' (by rfl), back,
      frontNumber_decimal size (by decide), take_left' hex]
    rfl

/-- Three bytes are stored, and the range asks for more than they have. -/
theorem readRangeSync_exact_past :
    ∃ session, (putBytesSync {dataDir := "blobs"} [1, 2, 3]).execute ⟨fun _ => none, []⟩ =
        (.ok (ContentHash.fromBytes [1, 2, 3], 3), session) ∧
      readRangeSync sampleJson session.disk (ContentHash.fromBytes [1, 2, 3]) ⟨1, 9⟩ =
        .ok [2, 3] := by
  have put : ((putBytesSync {dataDir := "blobs"} [1, 2, 3]).execute ⟨fun _ => none, []⟩).1 =
      .ok (fromBytes [1, 2, 3], 3) := by
    decide +kernel
  obtain ⟨session, stored⟩ : ∃ session, (putBytesSync {dataDir := "blobs"} [1, 2, 3]).execute
      ⟨fun _ => none, []⟩ = (.ok (fromBytes [1, 2, 3], 3), session) := by
    generalize (putBytesSync {dataDir := "blobs"} [1, 2, 3]).execute ⟨fun _ => none, []⟩ = ended
      at put ⊢
    exact ⟨ended.2, by rw [← put]⟩
  exact ⟨session, stored, readRangeSync_exact sampleJson _ (by decide) stored (by decide)⟩

theorem getSync_exact_byte :
    let ended := (putBytesSync {dataDir := "blobs"} [7]).execute ⟨fun _ => none, []⟩
    getSync sampleJson ended.2.disk (fromBytes [7]) = .some [7] := by
  intro ended
  have put : ended.1 = .ok (fromBytes [7], 1) := by
    decide +kernel
  exact getSync_exact sampleJson _ (by decide) (by decide)
    ((Prod.eta ended).symm.trans (congrArg (·, ended.2) put))

end A3Net.Blobstore
